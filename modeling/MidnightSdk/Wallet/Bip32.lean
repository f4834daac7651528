import Mathlib.Data.Nat.ModEq
import MidnightSdk.Wallet.HdWallet

/-!
# Derivation and BIP-32

The standard numbers the children from 0 to 2³² − 1: the upper half of them is hardened, and a
left half of the MAC that is not below the order gives no child, nor does a key of zero. The
wallet adds up whatever the MAC is, and hardens by level.
-/

namespace MidnightSdk.Wallet

open Cpp LittleEndian

/-! ## The standard -/

namespace Bip32

def order : Nat := bnBin2bn secp256k1Order

def ser32 (i : Nat) : List UInt8 := (leBytes 4 i).reverse

/-- The point of a private key, compressed; none for the point at infinity. -/
def serP (lib : HdCrypto) (key : Bytes 32) : Option (Bytes 33) :=
  (lib.secpMul (bnBin2bn key.1)).map fun p =>
    ⟨(if p.2 % 2 = 1 then 0x03 else 0x02) :: (bnToBytes32 p.1).1, by
      rw [List.length_cons, (bnToBytes32 p.1).2]⟩

/-- The left half is added to the key, the right half is the chain code. -/
def ValidChild (key : Bytes 32) (digest : Bytes 64) : Prop :=
  bnBin2bn (halves digest).1.1 < order ∧
    (bnBin2bn key.1 + bnBin2bn (halves digest).1.1) % order ≠ 0

instance (key : Bytes 32) (digest : Bytes 64) : Decidable (ValidChild key digest) :=
  inferInstanceAs (Decidable (_ ∧ _))

def child (key : Bytes 32) (digest : Bytes 64) : Option ChainNode :=
  if ValidChild key digest then
    some ⟨bnToBytes32 ((bnBin2bn key.1 + bnBin2bn (halves digest).1.1) % order),
      (halves digest).2⟩
  else none

def ckdPriv (lib : HdCrypto) (parent : ChainNode) (i : Nat) : Option ChainNode :=
  if 2 ^ 32 ≤ i then none
  else if 2 ^ 31 ≤ i then
    child parent.key (lib.hmacSha512 parent.chainCode.1 (0 :: parent.key.1 ++ ser32 i))
  else
    (serP lib parent.key).bind fun point =>
      child parent.key (lib.hmacSha512 parent.chainCode.1 (point.1 ++ ser32 i))

def master (lib : HdCrypto) (seed : List UInt8) : Option ChainNode :=
  let (key, chainCode) := halves (lib.hmacSha512 (literal "Bitcoin seed") seed)
  if 0 < bnBin2bn key.1 ∧ bnBin2bn key.1 < order then some ⟨key, chainCode⟩ else none

/-- The node a path leads to, from the seed on. -/
def derive (lib : HdCrypto) (seed : List UInt8) (numbers : List Nat) : Option ChainNode :=
  (master lib seed).bind fun node => numbers.foldlM (ckdPriv lib) node

/-- `m/44'/2400'/account'/role/index` -/
def numbers (acc : UInt32) (role : Role) (idx : UInt32) : List Nat :=
  [2 ^ 31 + 44, 2 ^ 31 + 2400, 2 ^ 31 + acc.toNat, role.value.toNat, idx.toNat]

end Bip32

/-! ## The wallet -/

namespace HdWallet

open Bip32

/-- The numbers that `derive_path` hands to its levels. -/
def childNumbers (acc : UInt32) (role : Role) (idx : UInt32) : List UInt32 :=
  [44 + hardenedBit, 2400 + hardenedBit, acc + hardenedBit, role.value, idx]

def derived (lib : HdCrypto) (seed : List UInt8) (acc : UInt32) (role : Role) (idx : UInt32) :
    Throws ChainNode := do
  let w ← fromSeed lib seed
  w.derivePath lib acc role idx

structure PathLaw (lib : HdCrypto) (seed : List UInt8) (acc : UInt32) (role : Role)
    (idx : UInt32) : Prop where
  standard : ∀ node, derived lib seed acc role idx = .ok node →
    Bip32.derive lib seed (numbers acc role idx) = some node
  distinct : ∀ acc' role' idx', childNumbers acc' role' idx' = childNumbers acc role idx →
    acc' = acc ∧ role' = role ∧ idx' = idx

section
variable (lib : HdCrypto)

def hardenedDigest (parent : ChainNode) (index : UInt32) : Bytes 64 :=
  lib.hmacSha512 parent.chainCode.1 (0x00 :: parent.key.1 ++ indexBytes index)

def normalDigest (parent : ChainNode) (pub : Bytes 33) (index : UInt32) : Bytes 64 :=
  lib.hmacSha512 parent.chainCode.1 (pub.1 ++ indexBytes index)

/-- What every level makes of its MAC. -/
def addTweak (parent : ChainNode) (digest : Bytes 64) : ChainNode :=
  ⟨secpAdd parent.key (halves digest).1, (halves digest).2⟩

def hardened (parent : ChainNode) (index : UInt32) : ChainNode :=
  addTweak parent (hardenedDigest lib parent index)

def masterNode (seed : List UInt8) : ChainNode :=
  ⟨(halves (lib.hmacSha512 (literal "Bitcoin seed") seed)).1,
    (halves (lib.hmacSha512 (literal "Bitcoin seed") seed)).2⟩

def purposeNode (seed : List UInt8) : ChainNode :=
  hardened lib (masterNode lib seed) (44 + hardenedBit)

def coinNode (seed : List UInt8) : ChainNode :=
  hardened lib (purposeNode lib seed) (2400 + hardenedBit)

def accountNode (seed : List UInt8) (acc : UInt32) : ChainNode :=
  hardened lib (coinNode lib seed) (acc + hardenedBit)

def roleNode (seed : List UInt8) (acc : UInt32) (role : Role) (pub : Bytes 33) : ChainNode :=
  addTweak (accountNode lib seed acc) (normalDigest lib (accountNode lib seed acc) pub role.value)

theorem derived_eq {seed : List UInt8} (h : seed.length = 64) (acc : UInt32) (role : Role)
    (idx : UInt32) : derived lib seed acc role idx = do
      let pub3 ← secpPubkey lib (accountNode lib seed acc).key
      let pub4 ← secpPubkey lib (roleNode lib seed acc role pub3).key
      return addTweak (roleNode lib seed acc role pub3)
        (normalDigest lib (roleNode lib seed acc role pub3) pub4 idx) := by
  rw [derived, fromSeed, if_neg (not_not.mpr h)]
  rfl

end

/-! ## One level -/

theorem byte_shifted (index : UInt32) {k : Nat} (hk : k < 32) :
    ((index >>> UInt32.ofNat k) &&& 0xFF).toUInt8 = UInt8.ofNat (index.toNat / 2 ^ k) := by
  apply UInt8.toNat_inj.mp
  have shift : (UInt32.ofNat k).toNat % 32 = k := by
    rw [UInt32.toNat_ofNat']
    omega
  rw [UInt32.toNat_toUInt8, UInt32.toNat_and, UInt32.toNat_shiftRight, shift, UInt8.toNat_ofNat']
  change (index.toNat >>> k &&& 2 ^ 8 - 1) % 2 ^ 8 = _
  rw [Nat.and_two_pow_sub_one_eq_mod, Nat.shiftRight_eq_div_pow, Nat.mod_mod]

theorem ser32_toNat (index : UInt32) : ser32 index.toNat = indexBytes index := by
  have b3 : ((index >>> 24) &&& 0xFF).toUInt8 = _ := byte_shifted index (k := 24) (by decide)
  have b2 : ((index >>> 16) &&& 0xFF).toUInt8 = _ := byte_shifted index (k := 16) (by decide)
  have b1 : ((index >>> 8) &&& 0xFF).toUInt8 = _ := byte_shifted index (k := 8) (by decide)
  have b0 : (index &&& 0xFF).toUInt8 = UInt8.ofNat index.toNat := by
    apply UInt8.toNat_inj.mp
    rw [UInt32.toNat_toUInt8, UInt32.toNat_and, UInt8.toNat_ofNat']
    change (index.toNat &&& 2 ^ 8 - 1) % 2 ^ 8 = _
    rw [Nat.and_two_pow_sub_one_eq_mod, Nat.mod_mod]
  rw [indexBytes, b3, b2, b1, b0]
  simp only [ser32, leBytes, List.reverse_cons, List.reverse_nil, List.nil_append,
    List.cons_append, Nat.div_div_eq_div_mul]
  norm_num

section
variable {lib : HdCrypto} {parent : ChainNode} {pub : Bytes 33} {index : UInt32}

/-- Where the standard has a child, it is the sum. -/
theorem child_eq (parent : ChainNode) (digest : Bytes 64) :
    child parent.key digest =
      if ValidChild parent.key digest then some (addTweak parent digest) else none := rfl

theorem serP_eq_some_iff {key : Bytes 32} :
    serP lib key = some pub ↔ secpPubkey lib key = .ok pub := by
  unfold serP secpPubkey
  cases lib.secpMul (bnBin2bn key.1) with
  | none => simp
  | some p => simp

theorem ckdPriv_hardened (h : 2 ^ 31 ≤ index.toNat) :
    ckdPriv lib parent index.toNat =
      if ValidChild parent.key (hardenedDigest lib parent index) then
        some (hardened lib parent index)
      else none := by
  have range := index.toNat_lt
  rw [ckdPriv, if_neg (by omega), if_pos h, ser32_toNat, child_eq]
  rfl

theorem ckdPriv_normal (h : index.toNat < 2 ^ 31) (hpub : secpPubkey lib parent.key = .ok pub) :
    ckdPriv lib parent index.toNat =
      if ValidChild parent.key (normalDigest lib parent pub index) then
        some (addTweak parent (normalDigest lib parent pub index))
      else none := by
  rw [ckdPriv, if_neg (by omega), if_neg (by omega), serP_eq_some_iff.mpr hpub, ser32_toNat]
  exact child_eq parent _

theorem toNat_add_hardenedBit (h : index.toNat < 2 ^ 31) :
    (index + hardenedBit).toNat = 2 ^ 31 + index.toNat := by
  have bit : hardenedBit.toNat = 2 ^ 31 := rfl
  rw [UInt32.toNat_add, bit]
  omega

theorem role_lt (role : Role) : role.value.toNat < 2 ^ 31 := by
  cases role <;> decide

/-- Two MACs that lead to the same child of a key. -/
def SameChild (digest digest' : Bytes 64) : Prop :=
  bnBin2bn (halves digest).1.1 % order = bnBin2bn (halves digest').1.1 % order ∧
    (halves digest).2 = (halves digest').2

theorem order_pos : 0 < order := by decide

theorem order_lt : order < 256 ^ 32 := bnBin2bn_lt ⟨secp256k1Order, rfl⟩

theorem bnToBytes32_mod_inj {m n : Nat} :
    bnToBytes32 (m % order) = bnToBytes32 (n % order) ↔ m % order = n % order := by
  refine ⟨fun h => ?_, fun h => by rw [h]⟩
  have read (k : Nat) : bnBin2bn (bnToBytes32 (k % order)).1 = k % order :=
    bnBin2bn_bnToBytes32 (Nat.lt_trans (Nat.mod_lt k order_pos) order_lt)
  rw [← read m, h, read n]

theorem addTweak_eq_iff {digest digest' : Bytes 64} :
    addTweak parent digest = addTweak parent digest' ↔ SameChild digest digest' := by
  rw [addTweak, addTweak, ChainNode.mk.injEq]
  refine and_congr_left fun _ => ?_
  change bnToBytes32 ((bnBin2bn parent.key.1 + _) % order) =
    bnToBytes32 ((bnBin2bn parent.key.1 + _) % order) ↔ _
  rw [bnToBytes32_mod_inj]
  exact ⟨Nat.ModEq.add_left_cancel' (bnBin2bn parent.key.1),
    Nat.ModEq.add_left (bnBin2bn parent.key.1)⟩

/-! ## All levels -/

/-- Every level has a child in the standard, and one from 2³¹ on is not told by its MAC. -/
structure Conforms (lib : HdCrypto) (seed : List UInt8) (acc : UInt32) (role : Role) (idx : UInt32)
    (pub3 pub4 : Bytes 33) : Prop where
  account : acc.toNat < 2 ^ 31
  master : 0 < bnBin2bn (masterNode lib seed).key.1 ∧ bnBin2bn (masterNode lib seed).key.1 < order
  purposeChild : ValidChild (masterNode lib seed).key
    (hardenedDigest lib (masterNode lib seed) (44 + hardenedBit))
  coinChild : ValidChild (purposeNode lib seed).key
    (hardenedDigest lib (purposeNode lib seed) (2400 + hardenedBit))
  accountChild : ValidChild (coinNode lib seed).key
    (hardenedDigest lib (coinNode lib seed) (acc + hardenedBit))
  roleChild : ValidChild (accountNode lib seed acc).key
    (normalDigest lib (accountNode lib seed acc) pub3 role.value)
  indexChild : idx.toNat < 2 ^ 31 → ValidChild (roleNode lib seed acc role pub3).key
    (normalDigest lib (roleNode lib seed acc role pub3) pub4 idx)
  indexHardened : 2 ^ 31 ≤ idx.toNat →
    ValidChild (roleNode lib seed acc role pub3).key
      (hardenedDigest lib (roleNode lib seed acc role pub3) idx) ∧
    SameChild (hardenedDigest lib (roleNode lib seed acc role pub3) idx)
      (normalDigest lib (roleNode lib seed acc role pub3) pub4 idx)

end

section
variable {lib : HdCrypto} {seed : List UInt8} {acc : UInt32} {role : Role} {idx : UInt32}
  {pub3 pub4 : Bytes 33}

theorem master_eq : master lib seed =
    if 0 < bnBin2bn (masterNode lib seed).key.1 ∧
      bnBin2bn (masterNode lib seed).key.1 < order then some (masterNode lib seed) else none := rfl

theorem derive_eq_some_iff {node : ChainNode} :
    Bip32.derive lib seed (numbers acc role idx) = some node ↔
      ∃ n0, master lib seed = some n0 ∧ ∃ n1, ckdPriv lib n0 (2 ^ 31 + 44) = some n1 ∧
        ∃ n2, ckdPriv lib n1 (2 ^ 31 + 2400) = some n2 ∧
        ∃ n3, ckdPriv lib n2 (2 ^ 31 + acc.toNat) = some n3 ∧
        ∃ n4, ckdPriv lib n3 role.value.toNat = some n4 ∧ ckdPriv lib n4 idx.toNat = some node := by
  simp [Bip32.derive, numbers, Option.bind_eq_some_iff]

/-- There is no hardened number for an account from 2³¹ on. -/
theorem derive_eq_none (h : 2 ^ 31 ≤ acc.toNat) :
    Bip32.derive lib seed (numbers acc role idx) = none := by
  rw [Option.eq_none_iff_forall_ne_some]
  intro node found
  obtain ⟨_, -, _, -, _, -, _, hnone, -⟩ := derive_eq_some_iff.mp found
  rw [ckdPriv, if_pos (by omega)] at hnone
  cases hnone

theorem exists_child_iff {α : Type} {p : Prop} [Decidable p] {found : Option α} {a : α}
    {P : α → Prop} (h : found = if p then some a else none) :
    (∃ b, found = some b ∧ P b) ↔ p ∧ P a := by
  rw [h]
  split <;> simp [*]

/-- The last level, which the wallet never hardens. -/
theorem lastLevel_iff {parent : ChainNode} (hpub : secpPubkey lib parent.key = .ok pub4) :
    ckdPriv lib parent idx.toNat = some (addTweak parent (normalDigest lib parent pub4 idx)) ↔
      (idx.toNat < 2 ^ 31 → ValidChild parent.key (normalDigest lib parent pub4 idx)) ∧
      (2 ^ 31 ≤ idx.toNat → ValidChild parent.key (hardenedDigest lib parent idx) ∧
        SameChild (hardenedDigest lib parent idx) (normalDigest lib parent pub4 idx)) := by
  by_cases low : idx.toNat < 2 ^ 31
  · rw [ckdPriv_normal low hpub]
    constructor
    · intro h
      refine ⟨fun _ => ?_, fun high => absurd low (Nat.not_lt.mpr high)⟩
      by_contra invalid
      rw [if_neg invalid] at h
      cases h
    · rintro ⟨valid, -⟩
      rw [if_pos (valid low)]
  · have high : 2 ^ 31 ≤ idx.toNat := Nat.not_lt.mp low
    rw [ckdPriv_hardened high, ← @addTweak_eq_iff parent]
    constructor
    · intro h
      refine ⟨fun below => absurd below low, fun _ => ?_⟩
      split at h
      · rename_i valid
        exact ⟨valid, Option.some.inj h⟩
      · cases h
    · rintro ⟨-, same⟩
      rw [if_pos (same high).1, hardened, (same high).2]

/-- The standard's path, level by level, at the wallet's nodes. -/
theorem derive_eq_some_iff_conforms (h3 : secpPubkey lib (accountNode lib seed acc).key = .ok pub3)
    (h4 : secpPubkey lib (roleNode lib seed acc role pub3).key = .ok pub4) :
    Bip32.derive lib seed (numbers acc role idx) =
        some (addTweak (roleNode lib seed acc role pub3)
          (normalDigest lib (roleNode lib seed acc role pub3) pub4 idx)) ↔
      Conforms lib seed acc role idx pub3 pub4 := by
  have purpose : (2 ^ 31 + 44 : Nat) = (44 + hardenedBit : UInt32).toNat := by decide
  have coin : (2 ^ 31 + 2400 : Nat) = (2400 + hardenedBit : UInt32).toNat := by decide
  by_cases account : acc.toNat < 2 ^ 31
  · have number := toNat_add_hardenedBit account
    have level1 : ckdPriv lib (masterNode lib seed) (44 + hardenedBit : UInt32).toNat =
        if _ then some (purposeNode lib seed) else none := ckdPriv_hardened (by decide)
    have level2 : ckdPriv lib (purposeNode lib seed) (2400 + hardenedBit : UInt32).toNat =
        if _ then some (coinNode lib seed) else none := ckdPriv_hardened (by decide)
    have level3 : ckdPriv lib (coinNode lib seed) (acc + hardenedBit).toNat =
        if _ then some (accountNode lib seed acc) else none := ckdPriv_hardened (by omega)
    have level4 : ckdPriv lib (accountNode lib seed acc) role.value.toNat =
        if _ then some (roleNode lib seed acc role pub3) else none :=
      ckdPriv_normal (role_lt role) h3
    rw [derive_eq_some_iff, purpose, coin, ← number, exists_child_iff master_eq,
      exists_child_iff level1, exists_child_iff level2, exists_child_iff level3,
      exists_child_iff level4]
    have last := @lastLevel_iff lib idx pub4 (roleNode lib seed acc role pub3) h4
    constructor
    · rintro ⟨hmaster, hpurpose, hcoin, haccount, hrole, hindex⟩
      obtain ⟨low, high⟩ := last.mp hindex
      exact ⟨account, hmaster, hpurpose, hcoin, haccount, hrole, low, high⟩
    · rintro ⟨-, hmaster, hpurpose, hcoin, haccount, hrole, low, high⟩
      exact ⟨hmaster, hpurpose, hcoin, haccount, hrole, last.mpr ⟨low, high⟩⟩
  · refine iff_of_false ?_ fun conforms => account conforms.account
    rw [derive_eq_none (Nat.not_lt.mp account)]
    nofun

theorem childNumbers_inj {acc' : UInt32} {role' : Role} {idx' : UInt32}
    (h : childNumbers acc' role' idx' = childNumbers acc role idx) :
    acc' = acc ∧ role' = role ∧ idx' = idx := by
  simp only [childNumbers, List.cons.injEq, true_and, and_true] at h
  obtain ⟨hacc, hrole, hidx⟩ := h
  refine ⟨?_, ?_, hidx⟩
  · have words := congrArg UInt32.toNat hacc
    have bit : hardenedBit.toNat = 2 ^ 31 := rfl
    have := acc.toNat_lt
    have := acc'.toNat_lt
    rw [UInt32.toNat_add, UInt32.toNat_add, bit] at words
    apply UInt32.toNat_inj.mp
    omega
  · cases role <;> cases role' <;> first | rfl | exact absurd hrole (by decide)

/-- **Where the wallet derives what the standard does**: with an account below 2³¹ and a child at
every level, if it gets a public key at both levels that need one. -/
theorem pathLaw_iff (lib : HdCrypto) {seed : List UInt8} (h : seed.length = 64) (acc : UInt32)
    (role : Role) (idx : UInt32) : PathLaw lib seed acc role idx ↔
      ∀ pub3 pub4, secpPubkey lib (accountNode lib seed acc).key = .ok pub3 →
        secpPubkey lib (roleNode lib seed acc role pub3).key = .ok pub4 →
        Conforms lib seed acc role idx pub3 pub4 := by
  constructor
  · intro law pub3 pub4 h3 h4
    rw [← derive_eq_some_iff_conforms h3 h4]
    refine law.standard _ ?_
    rw [derived_eq lib h, h3, ok_bind, h4, ok_bind]
    rfl
  · intro conforms
    refine ⟨fun node hnode => ?_, fun _ _ _ => childNumbers_inj⟩
    rw [derived_eq lib h, bind_eq_ok] at hnode
    obtain ⟨pub3, h3, hnode⟩ := hnode
    obtain ⟨pub4, h4, hnode⟩ := bind_eq_ok.mp hnode
    rw [← Except.ok.inj hnode]
    exact (derive_eq_some_iff_conforms h3 h4).mpr (conforms pub3 pub4 h3 h4)

end

/-- A library whose MAC is the key one. -/
def oneCrypto : HdCrypto where
  sha256 _ := Vector.replicate 32 0
  pbkdf2 := Bip39.Pbkdf2.telling (0, [])
  hmacSha512 _ _ := ⟨List.replicate 31 0 ++ 1 :: List.replicate 32 0, rfl⟩
  secpMul _ := some (0, 0)

theorem pathLaw_iff_first :
    PathLaw oneCrypto (List.replicate 64 0) 0 .nightExternal 0 ↔
      ∀ pub3 pub4,
        secpPubkey oneCrypto (accountNode oneCrypto (List.replicate 64 0) 0).key = .ok pub3 →
        secpPubkey oneCrypto
          (roleNode oneCrypto (List.replicate 64 0) 0 .nightExternal pub3).key = .ok pub4 →
        Conforms oneCrypto (List.replicate 64 0) 0 .nightExternal 0 pub3 pub4 :=
  pathLaw_iff oneCrypto List.length_replicate 0 .nightExternal 0

/-- The account 2³¹ has a key, though its number has no hardened form. -/
theorem not_pathLaw_account :
    (∃ node, derived oneCrypto (List.replicate 64 0) 0x80000000 .nightExternal 0 = .ok node) ∧
      Bip32.derive oneCrypto (List.replicate 64 0) (numbers 0x80000000 .nightExternal 0) = none ∧
      ¬ PathLaw oneCrypto (List.replicate 64 0) 0x80000000 .nightExternal 0 := by
  have none : Bip32.derive oneCrypto (List.replicate 64 0) (numbers 0x80000000 .nightExternal 0) =
      none := derive_eq_none (by decide)
  have key : ∃ node, derived oneCrypto (List.replicate 64 0) 0x80000000 .nightExternal 0 =
      .ok node := by
    rw [derived_eq oneCrypto List.length_replicate]
    exact ⟨_, rfl⟩
  refine ⟨key, none, fun law => ?_⟩
  obtain ⟨node, hnode⟩ := key
  have standard := law.standard node hnode
  rw [none] at standard
  cases standard

end HdWallet

end MidnightSdk.Wallet
