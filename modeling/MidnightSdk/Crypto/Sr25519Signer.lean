import MidnightSdk.Library.Cpp
import MidnightSdk.Library.Ed25519

/-!
# The SR25519 signer

A public key is a multiple of the Ristretto base point, while signatures are made and
checked with Ed25519, which hashes the secret bytes first. The two agree only on
secrets for which both give the same public key.
-/

namespace MidnightSdk.Crypto

open BigEndian Cpp

/-- What is used of `libsodium`. `initialises` is whether `sodium_init` succeeds, and
`ed25519Public` the public half of `crypto_sign_seed_keypair`. Signing gives the bytes that
are written, or nothing for a result other than zero. -/
structure SodiumSign where
  initialises : Bool
  ristrettoBase : Bytes 32 → Bytes 32
  validRistretto : Bytes 32 → Bool
  ed25519Public : Bytes 32 → Bytes 32
  signDetached : (message : List UInt8) → (secretKey : Bytes 64) → Option (List UInt8)
  verifyDetached : (signature : Bytes 64) → (message : List UInt8) → (publicKey : Bytes 32) → Bool
  hmacSha512 : (data : List UInt8) → (key : Bytes 32) → Bytes 64

/-- The library as it is. -/
def libsodium : SodiumSign where
  initialises := true
  ristrettoBase scalar :=
    ⟨Edwards25519.ristrettoEncode (Edwards25519.multiple Edwards25519.base 255
      (LittleEndian.leValue scalar.1 % 2 ^ 255)), Edwards25519.ristrettoEncode_length _⟩
  validRistretto point := Edwards25519.ristrettoValid point.1
  ed25519Public seed := ⟨Ed25519.publicKey seed.1, Ed25519.publicKey_length _⟩
  signDetached message secretKey := some (Ed25519.sign message secretKey.1)
  verifyDetached signature message publicKey := Ed25519.verify signature.1 message publicKey.1
  hmacSha512 data key := ⟨Sha512.hmac key.1 data, Sha512.sha512_length _⟩

def firstHalf (bytes : Bytes 64) : Bytes 32 :=
  ⟨bytes.1.take 32, by rw [List.length_take, bytes.2]; rfl⟩

def secondHalf (bytes : Bytes 64) : Bytes 32 :=
  ⟨bytes.1.drop 32, by rw [List.length_drop, bytes.2]⟩

def join (a b : Bytes 32) : Bytes 64 := ⟨a.1 ++ b.1, by rw [List.length_append, a.2, b.2]⟩

@[simp] theorem firstHalf_join (a b : Bytes 32) : firstHalf (join a b) = a :=
  Subtype.ext (List.take_left' a.2)

@[simp] theorem secondHalf_join (a b : Bytes 32) : secondHalf (join a b) = b :=
  Subtype.ext (List.drop_left' a.2)

theorem join_inj {a b a' b' : Bytes 32} : join a b = join a' b' ↔ a = a' ∧ b = b' := by
  constructor
  · intro h
    have first := congrArg firstHalf h
    have second := congrArg secondHalf h
    simp only [firstHalf_join] at first
    simp only [secondHalf_join] at second
    exact ⟨first, second⟩
  · rintro ⟨rfl, rfl⟩
    rfl

namespace Sr25519Signer

variable (sodium : SodiumSign)

/-- `initialize` of this signer. -/
def initializeSodium : Throws Unit :=
  if sodium.initialises then .ok ()
  else .error (.runtimeError "libsodium initialization failed")

/-- The three lines that stand behind every secret but that of an empty path. -/
def clamp (seed : Bytes 32) : Bytes 32 :=
  ⟨(seed.1.modify 0 (· &&& 0x07)).modify 31 fun b => b &&& 0xF8 ||| 0x30, by
    rw [List.length_modify, List.length_modify, seed.2]⟩

/-- The short hash that is also computed is not used. -/
def derivePublicFromSecret (secretKey : Bytes 32) : Bytes 32 := sodium.ristrettoBase secretKey

def buildExtendedSecret (secretKey publicKey : Bytes 32) : Bytes 64 := join secretKey publicKey

/-- `generate_keypair`, the seed being drawn. -/
def generateKeypair (drawn : Bytes 32) : Throws (Bytes 64 × Bytes 32) := do
  initializeSodium sodium
  let seed := clamp drawn
  let publicKey := derivePublicFromSecret sodium seed
  return (buildExtendedSecret seed publicKey, publicKey)

def keypairFromSeed (seed : Bytes 32) : Throws (Bytes 64 × Bytes 32) := do
  initializeSodium sodium
  let clampedSeed := clamp seed
  let publicKey := derivePublicFromSecret sodium clampedSeed
  return (buildExtendedSecret clampedSeed publicKey, publicKey)

/-- One component of a path: the seed and the chain code afterwards. The key of the hash is
the first chain code throughout. -/
def deriveComponent (firstChainCode : Bytes 32) (state : Bytes 64 × Bytes 32)
    (pathElem : UInt32) : Bytes 64 × Bytes 32 :=
  let derivationData := [0x00] ++ (firstHalf state.1).1 ++ beBytes 4 pathElem.toNat
  let derived := sodium.hmacSha512 derivationData firstChainCode
  let childSecret := clamp (firstHalf derived)
  let childChain := secondHalf derived
  (join childSecret childChain, childChain)

/-- The seed and the chain code behind a path. -/
def walkPath (seed : Bytes 64) (derivationPath : List UInt32) : Bytes 64 × Bytes 32 :=
  let chainCode := secondHalf (sodium.hmacSha512 (0x00 :: seed.1) (firstHalf seed))
  derivationPath.foldl (deriveComponent sodium chainCode) (seed, chainCode)

def derivePath (seed : Bytes 64) (derivationPath : List UInt32) :
    Throws (Bytes 64 × Bytes 32 × Bytes 32) := do
  initializeSodium sodium
  let (currentSeed, chainCode) := walkPath sodium seed derivationPath
  let secret := firstHalf currentSeed
  let publicKey := derivePublicFromSecret sodium secret
  return (buildExtendedSecret secret publicKey, publicKey, chainCode)

def sign (message : List UInt8) (secretKey : Bytes 64) : Throws (Bytes 64) := do
  initializeSodium sodium
  match sodium.signDetached message secretKey with
  | none => .error (.runtimeError "SR25519 signing failed")
  | some sig =>
    if h : sig.length = 64 then .ok ⟨sig, h⟩
    else .error (.runtimeError "Signature size mismatch")

def verify (message : List UInt8) (signature : Bytes 64) (publicKey : Bytes 32) :
    Throws Bool := do
  initializeSodium sodium
  return sodium.verifyDetached signature message publicKey

/-! ## Key pairs -/

/-- The ways to a key pair. -/
inductive Origin where
  | generated (drawn : Bytes 32)
  | fromSeed (seed : Bytes 32)
  | derived (seed : Bytes 64) (derivationPath : List UInt32)

def Origin.pair : Origin → Throws (Bytes 64 × Bytes 32)
  | generated drawn => generateKeypair sodium drawn
  | fromSeed seed => keypairFromSeed sodium seed
  | derived seed derivationPath => do
    let (secretKey, publicKey, _) ← derivePath sodium seed derivationPath
    return (secretKey, publicKey)

/-- The secret bytes that each way leads to: for a path its last hash clamped, or the first half
of the seed when the path is empty. -/
def Origin.secret : Origin → Bytes 32
  | generated drawn => clamp drawn
  | fromSeed seed => clamp seed
  | derived seed derivationPath => firstHalf (walkPath sodium seed derivationPath).1

variable {sodium}

theorem initializeSodium_eq_ok : initializeSodium sodium = .ok () ↔ sodium.initialises = true := by
  rw [initializeSodium]
  split <;> simp [*]

/-- **Every pair is a secret and its Ristretto multiple**, the multiple standing in both keys. -/
theorem pair_eq_ok {origin : Origin} {pair : Bytes 64 × Bytes 32} :
    origin.pair sodium = .ok pair ↔ sodium.initialises = true ∧
      pair = (join (origin.secret sodium) (sodium.ristrettoBase (origin.secret sodium)),
        sodium.ristrettoBase (origin.secret sodium)) := by
  cases ready : sodium.initialises with
  | false =>
    have stopped : initializeSodium sodium = .error (.runtimeError "libsodium initialization failed") := by
      rw [initializeSodium, ready]
      rfl
    cases origin <;>
      simp [Origin.pair, generateKeypair, keypairFromSeed, derivePath, stopped, bind, Except.bind]
  | true =>
    have started : initializeSodium sodium = .ok () := initializeSodium_eq_ok.mpr ready
    cases origin <;>
      simp only [Origin.pair, Origin.secret, generateKeypair, keypairFromSeed, derivePath, started,
        ok_bind, derivePublicFromSecret, buildExtendedSecret, true_and] <;>
      exact ⟨fun h => (Except.ok.inj h).symm, fun h => h ▸ rfl⟩

/-! ## Signatures under a pair -/

/-- What the library promises: a signature made with `a` and `b` is accepted under `p` exactly
when `b` is `p` and `p` is the public key of the seed `a`. -/
structure Lawful (sodium : SodiumSign) : Prop where
  verify_sign (message : List UInt8) (a b p : Bytes 32) : ∃ sig : Bytes 64,
    sodium.signDetached message (join a b) = some sig.1 ∧
      (sodium.verifyDetached sig message p = true ↔ b = p ∧ p = sodium.ed25519Public a)

/-- The answer about a fresh signature. -/
def verifySigned (sodium : SodiumSign) (message : List UInt8) (secretKey : Bytes 64)
    (publicKey : Bytes 32) : Throws Bool := do
  let signature ← sign sodium message secretKey
  verify sodium message signature publicKey

theorem verifySigned_join (lawful : Lawful sodium) (ready : sodium.initialises = true)
    (message : List UInt8) (a b p : Bytes 32) :
    verifySigned sodium message (join a b) p = .ok true ↔ b = p ∧ p = sodium.ed25519Public a := by
  have started : initializeSodium sodium = .ok () := initializeSodium_eq_ok.mpr ready
  obtain ⟨sig, made, accepted⟩ := lawful.verify_sign message a b p
  have signed : sign sodium message (join a b) = .ok sig := by
    simp only [sign, started, ok_bind, made, sig.2, dif_pos]
  rw [verifySigned, signed, ok_bind, verify, started, ok_bind, ← accepted]
  exact ⟨Except.ok.inj, congrArg Except.ok⟩

/-- **When a pair accepts its own signatures**: its secret has one and the same public key in
both schemes. -/
theorem verify_sign_iff (lawful : Lawful sodium) {origin : Origin} {secretKey : Bytes 64}
    {publicKey : Bytes 32} (hpair : origin.pair sodium = .ok (secretKey, publicKey))
    (message : List UInt8) :
    verifySigned sodium message secretKey publicKey = .ok true ↔
      sodium.ristrettoBase (origin.secret sodium) =
        sodium.ed25519Public (origin.secret sodium) := by
  obtain ⟨ready, pair⟩ := pair_eq_ok.mp hpair
  obtain ⟨rfl, rfl⟩ := Prod.mk.inj pair
  rw [verifySigned_join lawful ready]
  simp

/-- An empty path takes any bytes for a secret, so some pair refuses its signatures as soon as
the schemes differ at all. -/
theorem exists_refused (lawful : Lawful sodium) (ready : sodium.initialises = true)
    (differ : sodium.ristrettoBase ≠ sodium.ed25519Public) :
    ∃ seed secretKey publicKey, (Origin.derived seed []).pair sodium = .ok (secretKey, publicKey) ∧
      ∀ message, verifySigned sodium message secretKey publicKey ≠ .ok true := by
  obtain ⟨a, ha⟩ := Function.ne_iff.mp differ
  refine ⟨join a a, _, _, pair_eq_ok.mpr ⟨ready, rfl⟩, ?_⟩
  have secret : (Origin.derived (join a a) []).secret sodium = a := firstHalf_join a a
  intro message accepted
  rw [secret, verifySigned_join lawful ready] at accepted
  exact ha accepted.2

/-! ## The seed of zeros -/

def zeroSeed : Bytes 32 := ⟨List.replicate 32 0, List.length_replicate⟩

/-- The pair of this seed refuses its signature of the empty message. -/
theorem not_verify_zeroSeed :
    (keypairFromSeed libsodium zeroSeed >>= fun pair =>
      verifySigned libsodium [] pair.1 pair.2) = .ok false := by
  decide +kernel

/-- Signatures that say what they were made with, beside the public keys as they are. -/
def transparent : SodiumSign :=
  { libsodium with
    signDetached := fun _ secretKey =>
      some (join (libsodium.ed25519Public (firstHalf secretKey)) (secondHalf secretKey)).1
    verifyDetached := fun signature _ publicKey => signature = join publicKey publicKey }

theorem transparent_lawful : Lawful transparent where
  verify_sign message a b p := by
    refine ⟨join (libsodium.ed25519Public a) b, ?_, ?_⟩
    · simp [transparent]
    · change decide (_ = _) = true ↔ _ = _ ∧ _ = libsodium.ed25519Public a
      rw [decide_eq_true_eq, join_inj, and_comm, eq_comm (a := libsodium.ed25519Public a)]

theorem verify_sign_zeroSeed :
    let secret := clamp zeroSeed
    let publicKey := transparent.ristrettoBase secret
    verifySigned transparent [] (join secret publicKey) publicKey ≠ .ok true := by
  have apart : transparent.ristrettoBase (clamp zeroSeed) ≠
      transparent.ed25519Public (clamp zeroSeed) := by
    decide +kernel
  have pair : (Origin.fromSeed zeroSeed).pair transparent =
      .ok (join (clamp zeroSeed) (transparent.ristrettoBase (clamp zeroSeed)),
        transparent.ristrettoBase (clamp zeroSeed)) :=
    pair_eq_ok.mpr ⟨rfl, rfl⟩
  exact mt (verify_sign_iff transparent_lawful pair []).mp apart

end Sr25519Signer

end MidnightSdk.Crypto
