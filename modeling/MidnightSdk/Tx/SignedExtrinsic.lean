import MidnightSdk.Tx.ExtrinsicBuilder

/-!
# Signed extrinsics

The builder signs the call, the signed extensions and the data both sides know,
in this order, and sends the extensions before the call. Reading an extrinsic
back therefore has to find where the extensions end.
-/

namespace MidnightSdk.Tx

open Cpp Codec LittleEndian

/-- All the parameters of the builder. -/
structure SigningParams extends ExtrinsicParams where
  specVersion : UInt32
  txVersion : UInt32
  nonce : UInt64
  tip : UInt64 := 0
  mortalEra : Bool := false
  eraBlock : UInt64 := 0
  eraPeriod : UInt64 := 64
  deriving DecidableEq, Repr

/-- The builder with the parameters that only signing needs. -/
structure SigningBuilder where
  params : SigningParams
  builder : ExtrinsicBuilder
  same : builder.params = params.toExtrinsicParams

/-- `sodium_init`, `crypto_sign_detached` and `crypto_generichash` of 32 bytes. -/
structure SigningLibrary where
  init : Int
  signDetached : (message secretKey : List UInt8) → List UInt8
  generichash : (message : List UInt8) → List UInt8
  signDetached_length : ∀ message secretKey, (signDetached message secretKey).length = 64
  generichash_length : ∀ message, (generichash message).length = 32

namespace SigningBuilder

/-- The constructor. -/
def make (params : SigningParams) : Throws SigningBuilder :=
  match made : ExtrinsicBuilder.make params.toExtrinsicParams with
  | .ok builder => .ok ⟨params, builder, ExtrinsicBuilder.make_params made⟩
  | .error e => .error e

theorem make_params {params : SigningParams} {b : SigningBuilder} (h : make params = .ok b) :
    b.params = params := by
  unfold make at h
  split at h
  · cases h
    rfl
  · cases h

variable (b : SigningBuilder)

def encodeCall (call : PalletCall) : List UInt8 := b.builder.encodeCall call

def encodeExtra : List UInt8 :=
  let enc : ScaleEncoder := {}
  let enc :=
    if b.params.mortalEra then enc.encodeEraMortal b.params.eraBlock b.params.eraPeriod
    else enc.encodeEraImmortal
  let enc := enc.encodeCompact b.params.nonce
  let enc := enc.encodeCompact b.params.tip
  enc.buffer

def encodeAdditional : List UInt8 :=
  let enc := ScaleEncoder.encodeU32Le {} b.params.specVersion
  let enc := enc.encodeU32Le b.params.txVersion
  let enc := enc.encodeRaw b.params.genesisHash
  let enc :=
    if !b.params.mortalEra then enc.encodeRaw b.params.genesisHash
    else enc.encodeRaw b.params.blockHash
  enc.buffer

def buildSigningPayload (library : SigningLibrary) (call : PalletCall) : List UInt8 :=
  let payload := b.encodeCall call ++ b.encodeExtra ++ b.encodeAdditional
  if payload.length > 256 then library.generichash payload else payload

def buildSigned (library : SigningLibrary) (call : PalletCall)
    (secretKey64 publicKey32 : List UInt8) : Throws (List UInt8) := do
  if secretKey64.length ≠ 64 then throw (.runtimeError "Secret key must be 64 bytes")
  if publicKey32.length ≠ 32 then throw (.runtimeError "Public key must be 32 bytes")
  if library.init < 0 then throw (.runtimeError "libsodium init failed")
  let payload := b.buildSigningPayload library call
  let signature := library.signDetached payload secretKey64
  let body := ScaleEncoder.encodeU8 {} 0x84
  let body ← body.encodeMultiAddressId publicKey32
  let body := body.encodeU8 0x00
  let body := body.encodeRaw signature
  let body := body.encodeRaw b.encodeExtra
  let body := body.encodeRaw (b.encodeCall call)
  return body.finalizeWithLength

end SigningBuilder

/-! ## The format -/

/-- An immortal era is one zero byte, a mortal one two bytes. -/
inductive Era where
  | immortal
  | mortal (encoded : Nat)
  deriving DecidableEq, Repr

def decodeEra : List UInt8 → Option (Era × List UInt8)
  | [] => none
  | first :: rest =>
    if first = 0 then some (.immortal, rest)
    else
      match rest with
      | [] => none
      | second :: rest => some (.mortal (leValue [first, second]), rest)

structure Extra where
  era : Era
  nonce : Nat
  tip : Nat
  deriving DecidableEq, Repr

def decodeExtra (bytes : List UInt8) : Option (Extra × List UInt8) := do
  let (era, rest) ← decodeEra bytes
  let (nonce, rest) ← Compact.decode rest
  let (tip, rest) ← Compact.decode rest
  return (⟨era, nonce, tip⟩, rest)

def splitBytes (n : Nat) (bytes : List UInt8) : Option (List UInt8 × List UInt8) :=
  if n ≤ bytes.length then some (bytes.take n, bytes.drop n) else none

/-- The parts of a signed extrinsic; `extraBytes` and `callBytes` are the two
parts as they were written. -/
structure SignedExtrinsic where
  version : UInt8
  addressKind : UInt8
  accountId : List UInt8
  signatureKind : UInt8
  signature : List UInt8
  extra : Extra
  extraBytes : List UInt8
  callBytes : List UInt8
  deriving DecidableEq, Repr

/-- The length of all that follows, then the parts; what is left of the
extensions is the call. -/
def decodeSigned (bytes : List UInt8) : Option SignedExtrinsic := do
  let body ← decodeExactly bytes
  match body with
  | version :: addressKind :: rest =>
    let (accountId, rest) ← splitBytes 32 rest
    match rest with
    | signatureKind :: rest =>
      let (signature, rest) ← splitBytes 64 rest
      let (extra, callBytes) ← decodeExtra rest
      let extraBytes := rest.take (rest.length - callBytes.length)
      return { version, addressKind, accountId, signatureKind, signature, extra, extraBytes,
               callBytes }
    | [] => none
  | _ => none

/-! ## What is written -/

def SigningParams.era (params : SigningParams) : Era :=
  if params.mortalEra then
    .mortal (ScaleEncoder.eraMortal params.eraBlock params.eraPeriod).toNat
  else .immortal

def SigningParams.extra (params : SigningParams) : Extra :=
  ⟨params.era, params.nonce.toNat, params.tip.toNat⟩

/-- The data both sides know: the versions, the genesis hash and the hash of the
block the era starts from. -/
def SigningParams.additional (params : SigningParams) : List UInt8 :=
  leBytes 4 params.specVersion.toNat ++ leBytes 4 params.txVersion.toNat ++ params.genesisHash ++
    if params.mortalEra then params.blockHash else params.genesisHash

def eraBytes (params : SigningParams) : List UInt8 :=
  if params.mortalEra then
    leBytes 2 (ScaleEncoder.eraMortal params.eraBlock params.eraPeriod).toNat
  else [0]

theorem eraBytes_length_le (params : SigningParams) : (eraBytes params).length ≤ 2 := by
  unfold eraBytes
  split <;> simp

theorem decodeEra_eraBytes (params : SigningParams) (rest : List UInt8) :
    decodeEra (eraBytes params ++ rest) = some (params.era, rest) := by
  unfold eraBytes SigningParams.era
  by_cases hmortal : params.mortalEra = true
  · rw [if_pos hmortal, if_pos hmortal]
    generalize hera : ScaleEncoder.eraMortal params.eraBlock params.eraPeriod = encoded
    have low : encoded.toNat % 16 ≠ 0 := by
      rw [← hera]
      exact ScaleEncoder.eraMortal_low _ _
    have first : UInt8.ofNat encoded.toNat ≠ 0 := by
      intro hzero
      have value := congrArg UInt8.toNat hzero
      rw [UInt8.toNat_ofNat', UInt8.toNat_zero] at value
      omega
    have whole : leValue [UInt8.ofNat encoded.toNat, UInt8.ofNat (encoded.toNat / 256)] =
        encoded.toNat := by
      have written := leValue_leBytes_of_lt (k := 2) (n := encoded.toNat) encoded.toNat_lt
      exact written
    simp only [leBytes, List.cons_append, List.nil_append, decodeEra]
    rw [if_neg first, whole]
  · rw [if_neg hmortal, if_neg hmortal]
    rfl

namespace SigningBuilder

variable (b : SigningBuilder)

theorem encodeExtra_eq : b.encodeExtra =
    eraBytes b.params ++ (Compact.encode b.params.nonce.toNat ++
      Compact.encode b.params.tip.toNat) := by
  unfold encodeExtra eraBytes
  dsimp only
  rw [ScaleEncoder.encodeCompact_buffer, ScaleEncoder.encodeCompact_buffer, List.append_assoc]
  congr 1
  split
  · exact ScaleEncoder.encodeU16Le_buffer {} _
  · rfl

theorem encodeAdditional_eq : b.encodeAdditional = b.params.additional := by
  have versions : ((ScaleEncoder.encodeU32Le {} b.params.specVersion).encodeU32Le
      b.params.txVersion).buffer =
      leBytes 4 b.params.specVersion.toNat ++ leBytes 4 b.params.txVersion.toNat := by
    rw [ScaleEncoder.encodeU32Le_buffer, ScaleEncoder.encodeU32Le_buffer]
    rfl
  unfold encodeAdditional SigningParams.additional ScaleEncoder.encodeRaw
  dsimp only
  by_cases hmortal : b.params.mortalEra = true
  · rw [hmortal, if_neg (by decide), if_pos rfl, ScaleEncoder.insert_buffer,
      ScaleEncoder.insert_buffer, versions]
  · rw [Bool.not_eq_true] at hmortal
    rw [hmortal, if_pos (by decide), if_neg (by decide), ScaleEncoder.insert_buffer,
      ScaleEncoder.insert_buffer, versions]

theorem decodeExtra_encodeExtra (rest : List UInt8) :
    decodeExtra (b.encodeExtra ++ rest) = some (b.params.extra, rest) := by
  have wide (n : UInt64) : n.toNat < 256 ^ 67 := Nat.lt_trans n.toNat_lt (by decide)
  rw [encodeExtra_eq, List.append_assoc, List.append_assoc, decodeExtra, decodeEra_eraBytes]
  simp only [Option.bind_eq_bind, Option.bind_some, Compact.decode_encode (wide _)]
  rfl

theorem encodeExtra_length_le : b.encodeExtra.length ≤ 20 := by
  have era := eraBytes_length_le b.params
  have nonce := Compact.encode_length_le (k := 8) (by decide) b.params.nonce.toNat_lt
  have tip := Compact.encode_length_le (k := 8) (by decide) b.params.tip.toNat_lt
  rw [encodeExtra_eq, List.length_append, List.length_append]
  omega

end SigningBuilder

theorem splitBytes_append {n : Nat} {front : List UInt8} (h : front.length = n) (rest : List UInt8) :
    splitBytes n (front ++ rest) = some (front, rest) := by
  rw [splitBytes, if_pos (by simp [h]), List.take_left' h, List.drop_left' h]

/-! ## Reading a signed extrinsic back -/

/-- What is signed for a payload: the payload, or its hash when it is long. -/
def SigningLibrary.signed (library : SigningLibrary) (payload : List UInt8) : List UInt8 :=
  if payload.length > 256 then library.generichash payload else payload

/-- The extrinsic is the signed form of the call: the signature is over its own
call and its own extensions, followed by the data both sides know. -/
structure SignedBy (library : SigningLibrary) (params : SigningParams) (call : PalletCall)
    (secretKey64 publicKey32 : List UInt8) (e : SignedExtrinsic) : Prop where
  version : e.version = 0x84
  address : e.addressKind = 0x00 ∧ e.accountId = publicKey32
  signatureKind : e.signatureKind = 0x00
  signature_length : e.signature.length = 64
  extra : e.extra = params.extra
  call : e.callBytes = call.palletIndex :: call.callIndex :: call.callData
  signature : e.signature =
    library.signDetached (library.signed (e.callBytes ++ e.extraBytes ++ params.additional)) secretKey64

namespace SigningBuilder

variable (b : SigningBuilder) (library : SigningLibrary) (call : PalletCall)

def signature (secretKey64 : List UInt8) : List UInt8 :=
  library.signDetached (b.buildSigningPayload library call) secretKey64

/-- The bytes behind the length. -/
def body (secretKey64 publicKey32 : List UInt8) : List UInt8 :=
  0x84 :: 0x00 :: (publicKey32 ++ 0x00 :: (b.signature library call secretKey64 ++
    (b.encodeExtra ++ b.encodeCall call)))

theorem buildSigned_ok {secretKey64 publicKey32 : List UInt8} (hsecret : secretKey64.length = 64)
    (hpublic : publicKey32.length = 32) (ready : 0 ≤ library.init)
    (hsize : (b.body library call secretKey64 publicKey32).length < 2 ^ 64) :
    b.buildSigned library call secretKey64 publicKey32 =
      .ok (Compact.encode (b.body library call secretKey64 publicKey32).length ++
        b.body library call secretKey64 publicKey32) := by
  have buffer : (((((ScaleEncoder.mk ([] ++ [0x84] ++ [0x00] ++ publicKey32)).encodeU8 0x00).encodeRaw
      (b.signature library call secretKey64)).encodeRaw b.encodeExtra).encodeRaw
      (b.encodeCall call)).buffer = b.body library call secretKey64 publicKey32 := by
    simp [ScaleEncoder.encodeU8, ScaleEncoder.encodeRaw, ScaleEncoder.pushBack, ScaleEncoder.insert,
      body]
  have signer : (ScaleEncoder.encodeU8 {} 0x84).encodeMultiAddressId publicKey32 =
      .ok (ScaleEncoder.mk ([] ++ [0x84] ++ [0x00] ++ publicKey32)) := by
    rw [ScaleEncoder.encodeMultiAddressId, if_neg (by simp [hpublic])]
    rfl
  have finished := ScaleEncoder.finalizeWithLength_eq _ (by rwa [buffer])
  rw [buffer] at finished
  unfold buildSigned
  rw [if_neg (by simp [hsecret]), if_neg (by simp [hpublic]), if_neg (by omega)]
  dsimp only
  rw [signer]
  exact congrArg Except.ok finished

theorem body_length_lt (secretKey64 : List UInt8) {publicKey32 : List UInt8} (hpublic : publicKey32.length = 32)
    (hsize : call.callData.length < 2 ^ 63) :
    (b.body library call secretKey64 publicKey32).length < 2 ^ 64 := by
  have extra := b.encodeExtra_length_le
  have signature : (b.signature library call secretKey64).length = 64 :=
    library.signDetached_length _ _
  have calls : (b.encodeCall call).length = call.callData.length + 2 := by
    simp [encodeCall, ExtrinsicBuilder.encodeCall]
  simp only [body, List.length_cons, List.length_append, hpublic, signature, calls]
  omega

/-- The parts of the body, found again. -/
theorem decodeSigned_body {secretKey64 publicKey32 : List UInt8} (hpublic : publicKey32.length = 32)
    (hsize : (b.body library call secretKey64 publicKey32).length < 2 ^ 64) :
    decodeSigned (Compact.encode (b.body library call secretKey64 publicKey32).length ++
        b.body library call secretKey64 publicKey32) =
      some {
        version := 0x84
        addressKind := 0x00
        accountId := publicKey32
        signatureKind := 0x00
        signature := b.signature library call secretKey64
        extra := b.params.extra
        extraBytes := b.encodeExtra
        callBytes := b.encodeCall call } := by
  have signature : (b.signature library call secretKey64).length = 64 :=
    library.signDetached_length _ _
  have extraBytes : (b.encodeExtra ++ b.encodeCall call).take
      ((b.encodeExtra ++ b.encodeCall call).length - (b.encodeCall call).length) = b.encodeExtra := by
    rw [List.length_append, Nat.add_sub_cancel, List.take_left]
  rw [decodeSigned, decodeExactly_encode hsize]
  simp only [Option.bind_eq_bind, Option.bind_some, body, splitBytes_append hpublic,
    splitBytes_append signature, decodeExtra_encodeExtra, extraBytes]
  rfl

end SigningBuilder

/-- Every signed extrinsic is read back as what was signed. -/
theorem decode_buildSigned (library : SigningLibrary) (params : SigningParams) (b : SigningBuilder)
    (call : PalletCall) (secretKey64 publicKey32 : List UInt8)
    (made : SigningBuilder.make params = .ok b) (hsecret : secretKey64.length = 64)
    (hpublic : publicKey32.length = 32) (ready : 0 ≤ library.init)
    (hsize : call.callData.length < 2 ^ 63) :
    ∃ bytes e, b.buildSigned library call secretKey64 publicKey32 = .ok bytes ∧
      decodeSigned bytes = some e ∧ SignedBy library params call secretKey64 publicKey32 e := by
  have short := b.body_length_lt library call secretKey64 hpublic hsize
  have hparams : b.params = params := SigningBuilder.make_params made
  refine ⟨_, _, b.buildSigned_ok library call hsecret hpublic ready short,
    b.decodeSigned_body library call hpublic short, ?_⟩
  exact {
    version := rfl
    address := ⟨rfl, rfl⟩
    signatureKind := rfl
    signature_length := library.signDetached_length _ _
    extra := by rw [hparams]
    call := rfl
    signature := by
      rw [← hparams, ← b.encodeAdditional_eq]
      rfl }

/-- Signatures and hashes that are all zero. -/
def zeroLibrary : SigningLibrary where
  init := 0
  signDetached _ _ := List.replicate 64 0
  generichash _ := List.replicate 32 0
  signDetached_length _ _ := List.length_replicate
  generichash_length _ := List.length_replicate

def remarkParams : SigningParams where
  genesisHash := List.replicate 32 1
  blockHash := List.replicate 32 2
  specVersion := 22000
  txVersion := 2
  nonce := 70000
  mortalEra := true
  eraBlock := 1000

theorem decode_buildSigned_remark :
    ∃ b, SigningBuilder.make remarkParams = .ok b ∧ ∃ bytes e,
      b.buildSigned zeroLibrary ⟨0x00, 0x00, [4, 72]⟩ (List.replicate 64 3) (List.replicate 32 4) =
        .ok bytes ∧ decodeSigned bytes = some e ∧
      SignedBy zeroLibrary remarkParams ⟨0x00, 0x00, [4, 72]⟩ (List.replicate 64 3)
        (List.replicate 32 4) e :=
  ⟨⟨remarkParams, ⟨remarkParams.toExtrinsicParams, rfl, rfl⟩, rfl⟩, rfl,
    decode_buildSigned zeroLibrary remarkParams _ ⟨0x00, 0x00, [4, 72]⟩ (List.replicate 64 3)
      (List.replicate 32 4) rfl rfl rfl (by decide) (by decide)⟩

end MidnightSdk.Tx
