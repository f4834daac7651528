import MidnightSdk.Crypto.Bip340Signatures
import MidnightSdk.Signing.KeyFiles

/-!
# The transaction signer

Payloads are signed with BIP-340 under the private key of a key pair. The last
payload is kept, and a verification is of that payload once there is one, whatever
body it is asked about.
-/

namespace MidnightSdk.Signing

open Cpp Crypto

structure TransactionSigner where
  keypair : Keypair
  lastSignedPayload : List UInt8

namespace TransactionSigner

/-- The constructor, once the address has been derived. -/
def new (keypair : Keypair) : TransactionSigner := ⟨keypair, []⟩

variable (lib : SignerLibrary)

def bip340Sign (unwritten : Unwritten) (self : TransactionSigner) (message : List UInt8) :
    Throws (List Char) :=
  match Bip340Signer.ofHex lib unwritten self.keypair.privateKey with
  | .error _ => .error (.runtimeError "Cannot sign: invalid BIP-340 private key")
  | .ok signer => Bip340Signer.signMessage lib unwritten signer message

/-- `sign_transaction`: its answer, and the signer afterwards. The payload is kept before
it is signed. -/
def signTransaction (unwritten : Unwritten) (self : TransactionSigner) (txBody : List UInt8) :
    Throws (List Char) × TransactionSigner :=
  if txBody.isEmpty then (.error (.runtimeError "Cannot sign empty ledger payload"), self)
  else (bip340Sign lib unwritten self txBody, { self with lastSignedPayload := txBody })

def bip340Verify (unwritten : Unwritten) (self : TransactionSigner) (signature : List Char)
    (originalPayload : List UInt8) : Bool :=
  Bip340Signer.verifySignature lib unwritten originalPayload signature self.keypair.publicKey

def verifySignature (unwritten : Unwritten) (self : TransactionSigner) (txBody : List UInt8)
    (signature : List Char) : Bool :=
  let payloadToVerify :=
    if self.lastSignedPayload.isEmpty then txBody else self.lastSignedPayload
  bip340Verify lib unwritten self signature payloadToVerify

/-! ## Histories -/

/-- The signer after a history of calls, whatever each of them answered. -/
def afterSigning (self : TransactionSigner) (history : List (Unwritten × List UInt8)) :
    TransactionSigner :=
  history.foldl (fun signer call => (signTransaction lib call.1 signer call.2).2) self

/-- The last payload of a history that was not refused as empty. -/
def lastPayload (history : List (Unwritten × List UInt8)) : Option (List UInt8) :=
  ((history.map Prod.snd).filter fun body => !body.isEmpty).getLast?

variable {lib} {self : TransactionSigner} {history : List (Unwritten × List UInt8)}

theorem signTransaction_keypair (unwritten : Unwritten) (txBody : List UInt8) :
    (signTransaction lib unwritten self txBody).2.keypair = self.keypair := by
  rw [signTransaction]
  split <;> rfl

theorem signTransaction_lastSignedPayload (unwritten : Unwritten) (txBody : List UInt8) :
    (signTransaction lib unwritten self txBody).2.lastSignedPayload =
      if txBody.isEmpty then self.lastSignedPayload else txBody := by
  rw [signTransaction]
  split <;> rfl

/-- What a history leaves of a signer: its key pair, and the last payload. -/
theorem afterSigning_eq : (afterSigning lib self history).keypair = self.keypair ∧
    (afterSigning lib self history).lastSignedPayload =
      (lastPayload history).getD self.lastSignedPayload := by
  induction history generalizing self with
  | nil => exact ⟨rfl, rfl⟩
  | cons call history ih =>
    obtain ⟨keypair, payload⟩ := @ih (signTransaction lib call.1 self call.2).2
    rw [signTransaction_keypair] at keypair
    rw [signTransaction_lastSignedPayload] at payload
    refine ⟨keypair, payload.trans ?_⟩
    rw [lastPayload, lastPayload, List.map_cons, List.filter_cons]
    cases empty : call.2.isEmpty with
    | true => simp
    | false => simp [List.getLast?_cons]

theorem lastPayload_ne_nil {last : List UInt8} (h : lastPayload history = some last) :
    last ≠ [] := by
  have kept := List.mem_of_getLast? h
  rw [List.mem_filter] at kept
  simpa using kept.2

/-- A verification after a history. -/
theorem verifySignature_afterSigning {keypair : Keypair} {unwritten : Unwritten}
    {body : List UInt8} {signature : List Char} :
    verifySignature lib unwritten (afterSigning lib (new keypair) history) body signature =
      Bip340Signer.verifySignature lib unwritten ((lastPayload history).getD body) signature
        keypair.publicKey := by
  obtain ⟨same, payload⟩ : (afterSigning lib (new keypair) history).keypair = keypair ∧
      (afterSigning lib (new keypair) history).lastSignedPayload =
        (lastPayload history).getD [] := afterSigning_eq
  rw [verifySignature, bip340Verify, same, payload]
  cases found : lastPayload history with
  | none => rfl
  | some last =>
    have filled : last.isEmpty = false := by simpa using lastPayload_ne_nil found
    simp only [Option.getD_some, filled, Bool.false_eq_true, if_false]

/-- **When a verification is of the body it is asked about**: nothing has been signed yet,
or the last payload gets the same answer. -/
theorem verifySignature_iff (lib : SignerLibrary) (keypair : Keypair)
    (history : List (Unwritten × List UInt8)) (unwritten : Unwritten) (body : List UInt8)
    (signature : List Char) :
    (verifySignature lib unwritten (afterSigning lib (new keypair) history) body signature = true ↔
      Bip340Signer.verifySignature lib unwritten body signature keypair.publicKey = true) ↔
    (lastPayload history = none ∨ ∃ last, lastPayload history = some last ∧
      Bip340Signer.verifySignature lib unwritten last signature keypair.publicKey =
        Bip340Signer.verifySignature lib unwritten body signature keypair.publicKey) := by
  rw [verifySignature_afterSigning, Bool.coe_iff_coe]
  cases lastPayload history with
  | none => simp
  | some last => simp

/-! ## A signature of another payload -/

open BigEndian Bip340Signer KeyManager Secp256k1

/-- The signature of the first payload, as the signer makes it. -/
noncomputable def firstSignature : List Char :=
  signatureText openSsl twelve (literal "pay 1") sampleNonce sampleX

theorem readSignature_first (unset : Nat → UInt32) :
    readSignature unset firstSignature = some ((bnToBytes sampleX 32).1,
      (bnToBytes (answer sampleNonce
        (challenge openSsl (bnToBytes sampleX 32).1 twelve.publicKey.1 (literal "pay 1"))
        (beValue twelve.secretKey.1)) 32).1) :=
  readSignature_signatureText unset sampleNonce sampleX

theorem bip340Sign_twelve :
    bip340Sign openSsl sampleUnwritten (new twelveKeypair) (literal "pay 1") =
      .ok firstSignature := by
  have spelled : HexText.Spells (stripPrefix twelveKeypair.privateKey) twelve.secretKey.1 := by
    have same : stripPrefix twelveKeypair.privateKey = Util.bytesToHex twelve.secretKey.1 := by
      decide
    rw [same]
    exact Util.bytesToHex_spells _
  have signer : ofHex openSsl sampleUnwritten twelveKeypair.privateKey = .ok twelve :=
    (ofHex_spells spelled).trans setKey_twelve
  rw [bip340Sign]
  simp only [new, signer]
  exact signMessage_sample

theorem readPublicKey_twelve (unset : Nat → UInt32) :
    readPublicKey unset twelveKeypair.publicKey = some twelve.publicKey.1 := by
  have same : stripPrefix twelveKeypair.publicKey = Util.bytesToHex twelve.publicKey.1 := by
    decide
  apply readPublicKey_spells unset _ twelve.publicKey.2
  rw [same]
  exact Util.bytesToHex_spells _

/-- The two points of the key as multiples of the generator. -/
theorem ofCompressed_twelve :
    openSsl.curve.ofCompressed (beValue twelve.publicKey.1) true =
        some (12 • openSsl.curve.generator) ∧
      openSsl.curve.ofCompressed (beValue twelve.publicKey.1) false =
        some ((order - 12) • openSsl.curve.generator) := by
  have point := affine_twelve
  have value : beValue twelve.publicKey.1 =
      0xd01115d548e7561b15c38f004d734633687cf4419620095bc5b0f47070afe85a := by decide
  have opposite : (order - 12) • openSsl.curve.generator = -(12 • openSsl.curve.generator) := by
    rw [openSsl.curve.neg_smul_generator, Nat.cast_sub (by decide), ZMod.natCast_self,
      zero_sub]
  rw [value_twelve] at point
  have lifted := CurveGroup.ofCompressed_affine point
  have odd : decide (0xa9f34ffdc815e0d7a8b64537e17bd81579238c5dd9a86d526b051b13f4062327 % 2 = 1) =
      true := by decide
  rw [odd] at lifted
  rw [value, opposite]
  exact ⟨lifted, CurveGroup.ofCompressed_neg lifted⟩

/-- Under the second payload's challenge neither point of the key gives the nonce's x. -/
theorem second_refused :
    Bip340Signer.verifySignature openSsl sampleUnwritten (literal "pay 2") firstSignature
      twelveKeypair.publicKey = false := by
  have hash : challenge openSsl (bnToBytes sampleX 32).1 twelve.publicKey.1 (literal "pay 2") =
      0xfd9181ecd61c2bf91773be5cbdb9155aacbf0023c7692c6621839ccc2d043fec := by
    decide +kernel
  have scalar : beValue (bnToBytes (answer sampleNonce
      (challenge openSsl (bnToBytes sampleX 32).1 twelve.publicKey.1 (literal "pay 1"))
      (beValue twelve.secretKey.1)) 32).1 =
      0x683131a85d450a8c0aa71f217ac49602a938b98a2e6c78cd97235d884b24fce5 := by
    decide +kernel
  have nonce : beValue (bnToBytes sampleX 32).1 = sampleX := by decide
  have even : acceptsWith openSsl
      0xfd9181ecd61c2bf91773be5cbdb9155aacbf0023c7692c6621839ccc2d043fec
      0x683131a85d450a8c0aa71f217ac49602a938b98a2e6c78cd97235d884b24fce5
      sampleX (beValue twelve.publicKey.1) false = false := by
    apply acceptsWith_eq_false ofCompressed_twelve.2 (m :=
      0x4b0348c266971a3924140b7a5f71965201fa60674ff30aca2b724880a4ccece9)
      (by decide) (Secp256k1.affine_smul (x :=
        0x258523060f63bf438b4e5932088952221e0cb3c347e47da5214ced2ef148c1d7) (y :=
        0x57ec5f2961eb56c4ea8ee240b2621470ddf1fd76bee48934f499648abf711e9c)
      (by decide +kernel))
    decide
  have odd : acceptsWith openSsl
      0xfd9181ecd61c2bf91773be5cbdb9155aacbf0023c7692c6621839ccc2d043fec
      0x683131a85d450a8c0aa71f217ac49602a938b98a2e6c78cd97235d884b24fce5
      sampleX (beValue twelve.publicKey.1) true = false := by
    apply acceptsWith_eq_false ofCompressed_twelve.1 (m :=
      0x855f1a8e53f2fadef13a32c8961795b3507712ad0ce5e6d102d4728ff17d0ce1)
      (by decide) (Secp256k1.affine_smul (x :=
        0x511d85e2c7d571dadf4eb4ce697ef94f30b2a1ba829ee754ed20b651e5d25a73) (y :=
        0x50c27c2af67b5a770959220b59c86ade784a7efb99e395c1521171a40bebccd4)
      (by decide +kernel))
    decide
  rw [← Bool.not_eq_true, verifySignature_eq (readSignature_first _) (readPublicKey_twelve _), hash,
    scalar, nonce, Bool.exists_bool, even, odd]
  decide

/-- A signature of the last payload is accepted for another body, which it is not of. -/
theorem accepts_other_payload :
    (signTransaction openSsl sampleUnwritten (new twelveKeypair) (literal "pay 1")).1 =
        .ok firstSignature ∧
      verifySignature openSsl sampleUnwritten
        (afterSigning openSsl (new twelveKeypair) [(sampleUnwritten, literal "pay 1")])
        (literal "pay 2") firstSignature = true ∧
      Bip340Signer.verifySignature openSsl sampleUnwritten (literal "pay 2") firstSignature
        twelveKeypair.publicKey = false := by
  refine ⟨?_, ?_, second_refused⟩
  · rw [signTransaction, if_neg (by decide), bip340Sign_twelve]
  · have last : (lastPayload [(sampleUnwritten, literal "pay 1")]).getD (literal "pay 2") =
        literal "pay 1" := by decide
    have own : Bip340Signer.verifySignature openSsl sampleUnwritten (literal "pay 1")
        firstSignature (publicKeyToHex twelve.publicKey) = true :=
      verifySignature_publicKey setKey_twelve signMessage_sample
    rw [verifySignature_eq (readSignature_first _)
      (readPublicKey_publicKeyToHex _ twelve.publicKey)] at own
    rw [verifySignature_afterSigning, last,
      verifySignature_eq (readSignature_first _) (readPublicKey_twelve _)]
    exact own

end TransactionSigner

end MidnightSdk.Signing
