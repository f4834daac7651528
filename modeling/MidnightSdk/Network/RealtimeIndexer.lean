import MidnightSdk.Network.RunningBalances

/-!
# The realtime client

A second client listens to the first one and keeps a state of its own, its balances as
they were last called back. As only created outputs call back, the two agree as long as
nothing is spent.
-/

namespace MidnightSdk.Network

open Cpp Words

/-- What the user has called back. -/
structure UserCallbacks (τ : Type) where
  balance : String → UInt64 → τ → τ
  utxo : UnshieldedTxEvent → τ → τ
  progress : UInt64 → τ → τ

structure RealtimeIndexerClient (τ : Type) where
  address : String
  state : WalletState := {}
  user : τ

namespace RealtimeIndexerClient

variable {τ : Type} (user : UserCallbacks τ)

def onWsBalance (token : String) (bal : UInt64) (rt : RealtimeIndexerClient τ) :
    RealtimeIndexerClient τ :=
  let state :=
    if token = "NIGHT" || token = "" then
      { rt.state with unshieldedBalance := toString bal.toNat }
    else if token = "DUST" then { rt.state with dustBalance := toString bal.toNat }
    else rt.state
  { rt with state, user := user.balance token bal rt.user }

/-- The outputs registered for dust generation, after an event. -/
def registeredAfter (registered : UInt64) (evt : UnshieldedTxEvent) : UInt64 :=
  let added := evt.created.foldl
    (fun n u => if u.registeredForDustGeneration then n + 1 else n) registered
  evt.spent.foldl
    (fun n u => if u.registeredForDustGeneration && n > 0 then n - 1 else n) added

def onWsUtxo (client : GraphQLSubscriptionClient) (evt : UnshieldedTxEvent)
    (rt : RealtimeIndexerClient τ) : RealtimeIndexerClient τ :=
  let state := { rt.state with
    address := rt.address
    availableUtxoCount := client.utxoCount.toUInt32.toUInt64
    dustRegisteredUtxoCount := registeredAfter rt.state.dustRegisteredUtxoCount evt
    synced := true }
  { rt with state, user := user.utxo evt rt.user }

/-- What `subscribe` has the first client call back. -/
def callbacks : Callbacks (RealtimeIndexerClient τ) where
  balance := onWsBalance user
  unshieldedTx := onWsUtxo user
  progress highestId rt := { rt with user := user.progress highestId rt.user }

def lastState (w : Watched (RealtimeIndexerClient τ)) : WalletState := w.listener.state

def balance (w : Watched (RealtimeIndexerClient τ)) (token : String) : UInt64 :=
  currentBalance w.client token

end RealtimeIndexerClient

open RealtimeIndexerClient

/-- A subscriber that keeps the latest balance of each token. -/
def keepLatest : UserCallbacks (String → UInt64) where
  balance token bal latest := fun t => if t = token then bal else latest t
  utxo _ latest := latest
  progress _ latest := latest

/-! ## Agreeing -/

inductive Token where
  | night
  | dust
  deriving DecidableEq, Repr

namespace Token

def name : Token → String
  | night => "NIGHT"
  | dust => "DUST"

def counter : Token → Counter
  | night => .night
  | dust => .dust

/-- The balance a state shows. -/
def shown : Token → WalletState → String
  | night, state => state.unshieldedBalance
  | dust, state => state.dustBalance

end Token

abbrev Followed : Type := Watched (RealtimeIndexerClient (String → UInt64))

/-- The messages handled from the start, with a subscriber that has heard of nothing. -/
def follow (throughDouble : ThroughDouble) (address : String) (datas : List Json) :
    Throws Followed :=
  handleMessages (callbacks keepLatest) throughDouble (.start { address, user := fun _ => 0 }) datas

/-- The listening client shows a number, and the subscriber holds it. -/
def ShowsAt (w : Followed) (token : Token) (n : UInt64) : Prop :=
  token.shown (lastState w) = toString n.toNat ∧ w.listener.user token.name = n

/-- Both hold the balances of the first client. -/
def Agree (w : Followed) : Prop :=
  ∀ token : Token, ShowsAt w token (balance w token.name)

theorem balance_name (w : Followed) (token : Token) :
    balance w token.name = token.counter.held w.client := by
  cases token <;> rfl

theorem showsAt_iff {w : Followed} {token : Token} {m n : UInt64} (h : ShowsAt w token m) :
    ShowsAt w token n ↔ n = m := by
  constructor
  · rintro ⟨-, hn⟩
    exact hn.symm.trans h.2
  · rintro rfl
    exact h

/-- A created output keeps the clients together. -/
theorem Agree.credit {w : Followed} (h : Agree w) (utxo : UtxoEvent) :
    Agree (w.credit (callbacks keepLatest) utxo) := by
  intro token
  unfold Watched.credit
  split
  · cases token with
    | night => exact ⟨rfl, rfl⟩
    | dust => exact h .dust
  · split
    · cases token with
      | night => exact h .night
      | dust => exact ⟨rfl, rfl⟩
    · cases token with
      | night => exact h .night
      | dust => exact h .dust

theorem Agree.foldl_credit {w : Followed} (h : Agree w) (created : List UtxoEvent) :
    Agree (created.foldl (Watched.credit (callbacks keepLatest)) w) := by
  induction created generalizing w with
  | nil => exact h
  | cons utxo created ih => exact ih (h.credit utxo)

theorem debit_listener (w : Followed) (utxo : UtxoEvent) : (w.debit utxo).listener = w.listener := by
  unfold Watched.debit
  split
  · rfl
  · split <;> rfl

theorem foldl_debit_listener (w : Followed) (spent : List UtxoEvent) :
    (spent.foldl Watched.debit w).listener = w.listener := by
  induction spent generalizing w with
  | nil => rfl
  | cons utxo spent ih => rw [List.foldl_cons, ih, debit_listener]

/-- After a message the listening side holds the balances behind the created outputs. -/
theorem Agree.apply_shows {w : Followed} (h : Agree w) (message : Message) (token : Token) :
    ShowsAt (message.apply (callbacks keepLatest) w) token
      ((message.created.map token.counter.weight).foldl (· + ·) (token.counter.held w.client)) := by
  have added := h.foldl_credit message.created token
  rw [balance_name, held_foldl_credit] at added
  cases message with
  | other => exact added
  | progress highestId => cases token <;> exact added
  | transaction evt =>
    have moved : ShowsAt (evt.spent.foldl Watched.debit
        (evt.created.foldl (Watched.credit (callbacks keepLatest)) w)) token
        ((evt.created.map token.counter.weight).foldl (· + ·) (token.counter.held w.client)) := by
      rw [ShowsAt, lastState, foldl_debit_listener]
      exact added
    simp only [Message.apply, Message.created]
    split
    · exact moved
    · cases token <;> exact moved

/-- A message spends nothing of the token, or there is nothing of it to spend. -/
def TakesNone (throughDouble : ThroughDouble) (client : GraphQLSubscriptionClient) (data : Json) :
    Prop :=
  ∀ token : Token, token.counter.total (spentIn throughDouble data) = 0 ∨
    ((token.counter.held client).toNat + token.counter.total (createdIn throughDouble data)) %
      2 ^ 64 = 0

theorem Agree.apply_iff {throughDouble : ThroughDouble} {w : Followed} (h : Agree w) {data : Json}
    {message : Message} (hmessage : readMessage throughDouble data = .ok message) :
    Agree (message.apply (callbacks keepLatest) w) ↔ TakesNone throughDouble w.client data := by
  apply forall_congr'
  intro token
  rw [balance_name, showsAt_iff (h.apply_shows message token), held_apply,
    Tally.after_eq_added_iff]
  simp only [Counter.total, createdIn, spentIn, hmessage]
  omega

theorem agree_start (address : String) :
    Agree (.start { address, user := fun _ => 0 }) := by
  have zero : "0" = toString (0 : UInt64).toNat := by decide
  intro token
  cases token <;> exact ⟨zero, rfl⟩

/-- **When the clients agree.** The second client's state and its subscriber hold the
balances after every message where no message takes anything off them, and only there. -/
theorem agree_iff (throughDouble : ThroughDouble) (address : String) {datas : List Json}
    {final : Followed} (handled : follow throughDouble address datas = .ok final) :
    (∀ seen, seen <+: datas → ∀ w, follow throughDouble address seen = .ok w → Agree w) ↔
      ∀ seen data, seen ++ [data] <+: datas → ∀ w, follow throughDouble address seen = .ok w →
        TakesNone throughDouble w.client data := by
  apply Runs.every_prefix_iff
  · rintro w ⟨⟩
    exact agree_start address
  · intro seen data hp hseen
    obtain ⟨after, hafter⟩ := handleMessages_prefix _ throughDouble handled hp
    obtain ⟨w, hw, message, hmessage, rfl⟩ := (handleMessages_snoc _ throughDouble).mp hafter
    have agrees := (hseen w hw).apply_iff hmessage
    simp only [follow, hafter, hw, Except.ok.injEq, forall_eq', agrees]

/-! ## An output spent alone -/

def createdThenSpent : List Json := spentFirst.reverse

theorem agree_iff_createdThenSpent :
    ∃ final, follow UInt64.ofInt "mn_addr" createdThenSpent = .ok final ∧
      ((∀ seen, seen <+: createdThenSpent → ∀ w,
          follow UInt64.ofInt "mn_addr" seen = .ok w → Agree w) ↔
        ∀ seen data, seen ++ [data] <+: createdThenSpent → ∀ w,
          follow UInt64.ofInt "mn_addr" seen = .ok w → TakesNone UInt64.ofInt w.client data) :=
  ⟨_, rfl, agree_iff UInt64.ofInt "mn_addr" rfl⟩

/-- Nothing is left of the five, and both still hold five. -/
theorem not_agree_createdThenSpent :
    ∃ final, follow UInt64.ofInt "mn_addr" createdThenSpent = .ok final ∧
      balance final "NIGHT" = 0 ∧ (lastState final).unshieldedBalance = "5" ∧
        final.listener.user "NIGHT" = 5 ∧ ¬ Agree final := by
  refine ⟨_, rfl, rfl, rfl, rfl, fun h => ?_⟩
  cases (h .night).2

end MidnightSdk.Network
