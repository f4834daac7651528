import Mathlib.Data.List.Infix

/-!
# A chain that finalizes its blocks in order

The blocks of a chain, of which the first ones are final. Later only what is behind the
final ones may be replaced, so a block that is final once stays on the chain.
-/

namespace MidnightSdk

structure FinalizingChain (β : Type*) where
  blocks : List β
  finalized : Nat
  finalized_le : finalized ≤ blocks.length

namespace FinalizingChain

variable {β : Type*}

def final (c : FinalizingChain β) : List β := c.blocks.take c.finalized

theorem final_prefix (c : FinalizingChain β) : c.final <+: c.blocks := List.take_prefix ..

theorem mem_blocks_of_final {c : FinalizingChain β} {b : β} (h : b ∈ c.final) : b ∈ c.blocks :=
  c.final_prefix.subset h

theorem final_length (c : FinalizingChain β) : c.final.length = c.finalized := by
  rw [final, List.length_take, Nat.min_eq_left c.finalized_le]

/-- Final blocks stay, and more become final. -/
def Finalizes (c later : FinalizingChain β) : Prop := c.final <+: later.final

theorem Finalizes.refl (c : FinalizingChain β) : c.Finalizes c := List.prefix_rfl

theorem Finalizes.trans {c d e : FinalizingChain β} (h : c.Finalizes d) (h' : d.Finalizes e) :
    c.Finalizes e :=
  List.IsPrefix.trans h h'

theorem Finalizes.mem {c later : FinalizingChain β} (h : c.Finalizes later) {b : β}
    (hb : b ∈ c.final) : b ∈ later.final :=
  h.subset hb

theorem Finalizes.finalized_le {c later : FinalizingChain β} (h : c.Finalizes later) :
    c.finalized ≤ later.finalized := by
  have length := h.length_le
  rwa [final_length, final_length] at length

end FinalizingChain

end MidnightSdk
