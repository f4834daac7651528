import MidnightSdk.Network.SubstrateRpc
import MidnightSdk.Tx.SignedExtrinsic
import MidnightSdk.Util.HexDecoders
import MidnightSdk.Wallet.HdWallet

/-!
# What a client signs and submits

The version of the runtime and the genesis hash are asked for once and kept. Whatever a client
builds is signed for this one pair, at a nonce that the node told.
-/

namespace MidnightSdk.Network

open Cpp Interaction Tx Util Wallet

structure SubmitResult where
  success : Bool := false
  txHash : String := ""
  error : String := ""
  deriving DecidableEq, Repr

namespace SubstrateRpc

def readRuntimeVersion (result : Json) : Throws RuntimeVersion := do
  let specName ← result.valueString "specName" ""
  let implName ← result.valueString "implName" ""
  let specVersion ← result.valueUInt32 "specVersion" 0
  let implVersion ← result.valueUInt32 "implVersion" 0
  let txVersion ← result.valueUInt32 "transactionVersion" 0
  let authoringVersion ← result.valueUInt32 "authoringVersion" 0
  return { specName, implName, specVersion, implVersion, txVersion, authoringVersion }

def getRuntimeVersion : Act RuntimeVersion := do
  let rpc ← Action.get
  match rpc.cachedRuntimeVersion with
  | some version => return version
  | none => do
    let result ← rpcCall "state_getRuntimeVersion" (.array [])
    let version ← Action.ofExcept (readRuntimeVersion result)
    Action.modify fun rpc => { rpc with cachedRuntimeVersion := some version }
    return version

def getGenesisHash : Act String := do
  let rpc ← Action.get
  match rpc.cachedGenesisHash with
  | some hash => return hash
  | none => do
    let result ← rpcCall "chain_getBlockHash" (.array [.unsigned 0])
    match result with
    | .string hash => do
      Action.modify fun rpc => { rpc with cachedGenesisHash := some hash }
      return hash
    | _ => Action.throw (.runtimeError "Unexpected genesis hash format")

def getFinalizedHead : Act String := do
  let result ← rpcCall "chain_getFinalizedHead" (.array [])
  match result with
  | .string hash => return hash
  | _ => Action.throw (.runtimeError "Unexpected finalized head format")

def getAccountNonce (accountIdHex : String) : Act UInt32 := do
  let result ← rpcCall "system_accountNextIndex" (.array [.string accountIdHex])
  if result.isNumber then Action.ofExcept result.getUInt32
  else Action.throw (.runtimeError "Unexpected nonce format")

/-- `ExtrinsicBuilder::to_hex` -/
def toHex (bytes : List UInt8) : String := String.ofList (['0', 'x'] ++ bytesToHex bytes)

variable (typeErrorText : Nat → String) (library : SigningLibrary)

def submitExtrinsic (extrinsicHex : String) : Act SubmitResult :=
  Action.catching
    (do
      let response ← rpcCall "author_submitExtrinsic" (.array [.string extrinsicHex])
      match response with
      | .string hash => return { success := true, txHash := hash }
      | _ => return { error := "Unexpected response format" })
    fun e => return { error := e.what typeErrorText }

/-- The extrinsic of a call, up to its signature. -/
def signed (call : PalletCall) (key : KeyPair) (tip : UInt64) : Act (List UInt8) := do
  let version ← getRuntimeVersion
  let genesisHex ← getGenesisHash
  let genesisHash ← Action.ofExcept (Codec.hexToBytes genesisHex.toList)
  let headHex ← getFinalizedHead
  let blockHash ← Action.ofExcept (Codec.hexToBytes headHex.toList)
  let nonce ← getAccountNonce (String.ofList (textOf key.address))
  let builder ← Action.ofExcept (SigningBuilder.make {
    genesisHash, blockHash, tip
    specVersion := version.specVersion
    txVersion := version.txVersion
    nonce := nonce.toUInt64
    mortalEra := false })
  Action.ofExcept (builder.buildSigned library call key.secretKey key.publicKey)

def buildAndSubmit (call : PalletCall) (key : KeyPair) (tip : UInt64) : Act SubmitResult :=
  Action.catching
    (do
      let extrinsic ← signed library call key tip
      submitExtrinsic typeErrorText (toHex extrinsic))
    fun e => return { error := e.what typeErrorText }

/-- The other methods are one call each. -/
structure Query where
  method : String
  params : Json
  reads : method ≠ "author_submitExtrinsic"

inductive Operation where
  | query (q : Query)
  | getRuntimeVersion
  | getGenesisHash
  | submitExtrinsic (extrinsicHex : String)
  | buildAndSubmit (call : PalletCall) (key : KeyPair) (tip : UInt64)

/-- What the caller does with a result is left open. -/
def Operation.perform : Operation → Act Unit
  | query q => do
    let _ ← rpcCall q.method q.params
  | getRuntimeVersion => do
    let _ ← SubstrateRpc.getRuntimeVersion
  | getGenesisHash => do
    let _ ← SubstrateRpc.getGenesisHash
  | submitExtrinsic extrinsicHex => do
    let _ ← SubstrateRpc.submitExtrinsic typeErrorText extrinsicHex
  | buildAndSubmit call key tip => do
    let _ ← SubstrateRpc.buildAndSubmit typeErrorText library call key tip

/-- The life of a client: what an operation throws ends only this operation. -/
def session : List Operation → Act Unit
  | [] => pure ()
  | operation :: operations => do
    let _ ← (operation.perform typeErrorText library).settled
    session operations

/-! ## What is cached stays -/

/-- An extrinsic goes to the node with this question. -/
def Submits (q : Question) (params : Json) : Prop :=
  ∃ id, q = .post (request "author_submitExtrinsic" params id)

structure Grown (s t : SubstrateRpc) : Prop where
  version : ∀ v, s.cachedRuntimeVersion = some v → t.cachedRuntimeVersion = some v
  genesis : ∀ hash, s.cachedGenesisHash = some hash → t.cachedGenesisHash = some hash

theorem Grown.refl (s : SubstrateRpc) : Grown s s := ⟨fun _ => id, fun _ => id⟩

theorem Grown.trans {s mid t : SubstrateRpc} (h : Grown s mid) (h' : Grown mid t) : Grown s t :=
  ⟨fun v hv => h'.version v (h.version v hv), fun hash hh => h'.genesis hash (h.genesis hash hh)⟩

/-- A run that submits nothing else. -/
structure Sends (allowed : Json → Prop) (s : SubstrateRpc) (seen : Seen) (t : SubstrateRpc) :
    Prop where
  grown : Grown s t
  sent : ∀ event ∈ seen, ∀ params, Submits event.1 params → allowed params

abbrev Silent : SubstrateRpc → Seen → SubstrateRpc → Prop := Sends fun _ => False

theorem sends_composes (allowed : Json → Prop) : Composes (Sends allowed) where
  nil s := ⟨.refl s, nofun⟩
  append h h' := by
    refine ⟨h.grown.trans h'.grown, fun event hmem => ?_⟩
    rcases List.mem_append.mp hmem with hmem | hmem
    · exact h.sent event hmem
    · exact h'.sent event hmem

theorem silent_composes : Composes Silent := sends_composes _

variable {method : String} {params : Json} {s t : SubstrateRpc} {seen : Seen}

theorem request_inj {method' : String} {params' : Json} {id id' : UInt32}
    (h : request method params id = request method' params' id') :
    method = method' ∧ params = params' := by
  simp only [request, Json.object.injEq, List.cons.injEq, Prod.mk.injEq, true_and, and_true,
    Json.string.injEq] at h
  exact h.2

theorem mem_postsOf {id : UInt32} {answers : List (Throws Json)} {event : Event Answer}
    (h : event ∈ postsOf method params id answers) :
    ∃ id' answer, event = ⟨.post (request method params id'), answer⟩ ∧ answer ∈ answers := by
  induction answers generalizing id with
  | nil => cases h
  | cons answer answers ih =>
    rcases List.mem_cons.mp h with rfl | h
    · exact ⟨id, answer, rfl, List.mem_cons_self⟩
    · obtain ⟨id', answer', rfl, hmem⟩ := ih h
      exact ⟨id', answer', rfl, List.mem_cons_of_mem _ hmem⟩

theorem mem_asking {time : Int} {event : Event Answer} (h : event ∈ s.asking time) :
    event.1 = .now := by
  unfold asking at h
  split at h
  · rw [List.mem_singleton.mp h]
  · cases h

/-- A call asks for the time, and posts its own method and parameters. -/
theorem Made.posts {result : Throws Json} (h : Made method params s seen result t) :
    ∀ event ∈ seen, event.1 = .now ∨ ∃ id, event.1 = .post (request method params id) := by
  have own {id : UInt32} {answers : List (Throws Json)} {event : Event Answer}
      (hmem : event ∈ postsOf method params id answers) :
      ∃ id, event.1 = .post (request method params id) := by
    obtain ⟨id', _, rfl, -⟩ := mem_postsOf hmem
    exact ⟨id', rfl⟩
  cases h with
  | refused time no => exact fun event hmem => .inl (mem_asking hmem)
  | served time yes answers result tried =>
    intro event hmem
    rcases List.mem_append.mp hmem with hmem | hmem
    · exact .inl (mem_asking hmem)
    · exact .inr (own hmem)
  | failed time yes answers e tried ended =>
    intro event hmem
    rcases List.mem_append.mp hmem with hmem | hmem
    · rcases List.mem_append.mp hmem with hmem | hmem
      · exact .inl (mem_asking hmem)
      · exact .inr (own hmem)
    · rw [List.mem_singleton.mp hmem]
      exact .inl rfl

theorem Made.grown {result : Throws Json} (h : Made method params s seen result t) : Grown s t := by
  cases h with
  | refused => exact ⟨fun _ => id, fun _ => id⟩
  | served => exact ⟨fun _ => id, fun _ => id⟩
  | failed => exact ⟨fun _ => id, fun _ => id⟩

/-- What a call asks, when it submits something. -/
theorem Made.submits {result : Throws Json} (h : Made method params s seen result t)
    {event : Event Answer} (hmem : event ∈ seen) {params' : Json} (hsub : Submits event.1 params') :
    method = "author_submitExtrinsic" ∧ params = params' := by
  obtain ⟨id, hid⟩ := hsub
  rcases h.posts event hmem with hnow | ⟨id', hpost⟩
  · rw [hnow] at hid
    cases hid
  · rw [hpost] at hid
    exact request_inj (Question.post.inj hid)

theorem sends_rpcCall {allowed : Json → Prop}
    (h : method = "author_submitExtrinsic" → allowed params) :
    Always (Sends allowed) (rpcCall method params) := by
  intro s seen result t hrun
  have made := ran_rpcCall hrun
  refine ⟨made.grown, fun event hmem params' hsub => ?_⟩
  obtain ⟨hmethod, rfl⟩ := made.submits hmem hsub
  exact h hmethod

theorem silent_rpcCall (reads : method ≠ "author_submitExtrinsic") :
    Always Silent (rpcCall method params) := sends_rpcCall reads

/-! ## What is asked for once -/

theorem Made.caches {result : Throws Json} (h : Made method params s seen result t) :
    t.cachedRuntimeVersion = s.cachedRuntimeVersion ∧ t.cachedGenesisHash = s.cachedGenesisHash := by
  cases h with
  | refused => exact ⟨rfl, rfl⟩
  | served => exact ⟨rfl, rfl⟩
  | failed => exact ⟨rfl, rfl⟩

/-- Only a version that was not known yet is stored. -/
theorem ran_getRuntimeVersion {result : Throws RuntimeVersion}
    (h : Ran getRuntimeVersion s seen result t) :
    Silent s seen t ∧ ∀ version, result = .ok version → t.cachedRuntimeVersion = some version := by
  have hnext := ran_get_bind h
  cases hcached : s.cachedRuntimeVersion with
  | some version =>
    rw [hcached] at hnext
    obtain ⟨rfl, rfl, rfl⟩ := ran_pure hnext
    refine ⟨silent_composes.nil t, fun v hv => ?_⟩
    cases hv
    exact hcached
  | none =>
    rw [hcached] at hnext
    rcases ran_bind hnext with ⟨e, hcall, rfl⟩ | ⟨answer, mid, before, after, rfl, hcall, hrest⟩
    · exact ⟨silent_rpcCall (by decide) hcall, nofun⟩
    have asked : Silent s before mid := silent_rpcCall (by decide) hcall
    rcases ran_bind hrest with ⟨e, hread, rfl⟩ | ⟨version, mid', read, rest, rfl, hread, hstore⟩
    · exact ⟨silent_composes.append asked (silent_composes.always_ofExcept _ hread), nofun⟩
    obtain ⟨rfl, -, rfl⟩ := ran_ofExcept hread
    have hend := ran_modify_bind hstore
    obtain ⟨rfl, rfl, rfl⟩ := ran_pure hend
    refine ⟨silent_composes.append asked ⟨⟨fun v hv => ?_, fun _ => id⟩, nofun⟩, fun v hv => ?_⟩
    · rw [(ran_rpcCall hcall).caches.1, hcached] at hv
      cases hv
    · cases hv
      rfl

theorem ran_getGenesisHash {result : Throws String} (h : Ran getGenesisHash s seen result t) :
    Silent s seen t ∧ ∀ hash, result = .ok hash → t.cachedGenesisHash = some hash := by
  have hnext := ran_get_bind h
  cases hcached : s.cachedGenesisHash with
  | some hash =>
    rw [hcached] at hnext
    obtain ⟨rfl, rfl, rfl⟩ := ran_pure hnext
    refine ⟨silent_composes.nil t, fun v hv => ?_⟩
    cases hv
    exact hcached
  | none =>
    rw [hcached] at hnext
    rcases ran_bind hnext with ⟨e, hcall, rfl⟩ | ⟨answer, mid, before, after, rfl, hcall, hrest⟩
    · exact ⟨silent_rpcCall (by decide) hcall, nofun⟩
    have asked : Silent s before mid := silent_rpcCall (by decide) hcall
    cases answer with
    | string hash =>
      have hend := ran_modify_bind hrest
      obtain ⟨rfl, rfl, rfl⟩ := ran_pure hend
      refine ⟨silent_composes.append asked ⟨⟨fun _ => id, fun v hv => ?_⟩, nofun⟩, fun v hv => ?_⟩
      · rw [(ran_rpcCall hcall).caches.2, hcached] at hv
        cases hv
      · cases hv
        rfl
    | _ =>
      obtain ⟨rfl, rfl, rfl⟩ := ran_throw hrest
      exact ⟨silent_composes.append asked (silent_composes.nil t), nofun⟩

theorem silent_getFinalizedHead : Always Silent getFinalizedHead := by
  apply silent_composes.always_bind (silent_rpcCall (by decide))
  intro result
  cases result with
  | string hash => exact silent_composes.always_pure hash
  | _ => exact silent_composes.always_throw _

theorem silent_getAccountNonce (accountIdHex : String) : Always Silent (getAccountNonce accountIdHex) := by
  apply silent_composes.always_bind (silent_rpcCall (by decide))
  intro result
  cases result.isNumber with
  | true => exact silent_composes.always_ofExcept _
  | false => exact silent_composes.always_throw _

/-! ## What is signed -/

theorem silent_signed (call : PalletCall) (key : KeyPair) (tip : UInt64) :
    Always Silent (signed library call key tip) := by
  apply silent_composes.always_bind fun h => (ran_getRuntimeVersion h).1
  intro version
  apply silent_composes.always_bind fun h => (ran_getGenesisHash h).1
  intro genesisHex
  apply silent_composes.always_bind (silent_composes.always_ofExcept _)
  intro genesisHash
  apply silent_composes.always_bind silent_getFinalizedHead
  intro headHex
  apply silent_composes.always_bind (silent_composes.always_ofExcept _)
  intro blockHash
  apply silent_composes.always_bind (silent_getAccountNonce _)
  intro nonce
  apply silent_composes.always_bind (silent_composes.always_ofExcept _)
  intro builder
  exact silent_composes.always_ofExcept _

/-- The node told this nonce of the account. -/
def Told (seen : Seen) (accountIdHex : String) (nonce : UInt32) : Prop :=
  ∃ id answer number,
    ⟨.post (request "system_accountNextIndex" (.array [.string accountIdHex]) id), answer⟩ ∈ seen ∧
      taken answer = .ok number ∧ number.isNumber = true ∧ number.getUInt32 = .ok nonce

/-- The parameters are those of the chain, as far as the client knows it. -/
structure OfChain (t : SubstrateRpc) (seen : Seen) (key : KeyPair) (tip : UInt64)
    (params : SigningParams) : Prop where
  version : ∃ version, t.cachedRuntimeVersion = some version ∧
    params.specVersion = version.specVersion ∧ params.txVersion = version.txVersion
  genesis : ∃ hash, t.cachedGenesisHash = some hash ∧
    Codec.hexToBytes hash.toList = .ok params.genesisHash
  nonce : ∃ nonce, Told seen (String.ofList (textOf key.address)) nonce ∧
    params.nonce = nonce.toUInt64
  tip : params.tip = tip
  immortal : params.mortalEra = false

/-- The text is the hex of the signed call. -/
def SignedText (t : SubstrateRpc) (seen : Seen) (call : PalletCall) (key : KeyPair) (tip : UInt64)
    (text : String) : Prop :=
  ∃ bytes e params, text = toHex bytes ∧ decodeSigned bytes = some e ∧
    SignedBy library params call key.secretKey key.publicKey e ∧ OfChain t seen key tip params

theorem Made.served_answer {result : Json} (h : Made method params s seen (.ok result) t) :
    ∃ id answer, ⟨.post (request method params id), answer⟩ ∈ seen ∧ taken answer = .ok result := by
  cases h with
  | served time yes answers result tried =>
    obtain ⟨-, ⟨failed, final, rfl, hfinal, -⟩, -⟩ := tried
    have last (id : UInt32) (front : List (Throws Json)) :
        ∃ id', ⟨.post (request method params id'), final⟩ ∈
          postsOf method params id (front ++ [final]) := by
      induction front generalizing id with
      | nil => exact ⟨id, List.mem_cons_self⟩
      | cons answer front ih =>
        obtain ⟨id', hmem⟩ := ih (id + 1)
        exact ⟨id', List.mem_cons_of_mem _ hmem⟩
    obtain ⟨id, hmem⟩ := last s.requestId failed
    exact ⟨id, final, List.mem_append_right _ hmem, hfinal.symm⟩

theorem told_getAccountNonce {accountIdHex : String} {nonce : UInt32}
    (h : Ran (getAccountNonce accountIdHex) s seen (.ok nonce) t) : Told seen accountIdHex nonce := by
  obtain ⟨number, mid, before, after, rfl, hcall, hrest⟩ := ran_bind_ok h
  obtain ⟨id, answer, hmem, htaken⟩ := (ran_rpcCall hcall).served_answer
  cases hnumber : number.isNumber with
  | true =>
    rw [hnumber, if_pos rfl] at hrest
    obtain ⟨rfl, hread, rfl⟩ := ran_ofExcept hrest
    exact ⟨id, answer, number, List.mem_append_left _ hmem, htaken, hnumber, hread.symm⟩
  | false =>
    rw [hnumber, if_neg (by decide)] at hrest
    obtain ⟨-, bad, -⟩ := ran_throw hrest
    cases bad

theorem Told.mono {seen' : Seen} {accountIdHex : String} {nonce : UInt32}
    (h : Told seen accountIdHex nonce) (more : ∀ event ∈ seen, event ∈ seen') :
    Told seen' accountIdHex nonce := by
  obtain ⟨id, answer, number, hmem, hnumber⟩ := h
  exact ⟨id, answer, number, more _ hmem, hnumber⟩

variable {library}

theorem SignedText.mono {t' : SubstrateRpc} {seen' : Seen} {call : PalletCall} {key : KeyPair}
    {tip : UInt64} {text : String} (h : SignedText library t seen call key tip text)
    (grown : Grown t t') (more : ∀ event ∈ seen, event ∈ seen') :
    SignedText library t' seen' call key tip text := by
  obtain ⟨bytes, e, params, htext, decoded, signed, ⟨version, known, same⟩, ⟨hash, kept, read⟩,
    ⟨nonce, told, hnonce⟩, htip, immortal⟩ := h
  exact ⟨bytes, e, params, htext, decoded, signed, ⟨version, grown.version _ known, same⟩,
    ⟨hash, grown.genesis _ kept, read⟩, ⟨nonce, told.mono more, hnonce⟩, htip, immortal⟩

/-- Whatever the builder returns is the signed call. -/
theorem signedBy_of_ok {library : SigningLibrary} {params : SigningParams} {b : SigningBuilder}
    {call : PalletCall} {secretKey64 publicKey32 bytes : List UInt8}
    (made : SigningBuilder.make params = .ok b) (hsize : call.callData.length < 2 ^ 63)
    (h : b.buildSigned library call secretKey64 publicKey32 = .ok bytes) :
    ∃ e, decodeSigned bytes = some e ∧ SignedBy library params call secretKey64 publicKey32 e := by
  have hsecret : secretKey64.length = 64 := by
    by_contra hne
    rw [SigningBuilder.buildSigned, if_pos hne] at h
    cases h
  have hpublic : publicKey32.length = 32 := by
    by_contra hne
    rw [SigningBuilder.buildSigned, if_neg (not_not_intro hsecret), if_pos hne] at h
    cases h
  have ready : 0 ≤ library.init := by
    by_contra hne
    rw [SigningBuilder.buildSigned, if_neg (not_not_intro hsecret), if_neg (not_not_intro hpublic),
      if_pos (Int.not_le.mp hne)] at h
    cases h
  have short := b.body_length_lt library call secretKey64 hpublic hsize
  rw [b.buildSigned_ok library call hsecret hpublic ready short] at h
  cases h
  have hparams : b.params = params := SigningBuilder.make_params made
  refine ⟨_, b.decodeSigned_body library call hpublic short, ?_⟩
  exact {
    version := rfl
    address := ⟨rfl, rfl⟩
    signatureKind := rfl
    signature_length := library.signDetached_length _ _
    extra := by rw [hparams]
    call := rfl
    signature := by
      rw [← hparams, ← b.encodeAdditional_eq]
      rfl }

theorem signedText_signed {call : PalletCall} {key : KeyPair} {tip : UInt64}
    (hsize : call.callData.length < 2 ^ 63) {extrinsic : List UInt8}
    (h : Ran (signed library call key tip) s seen (.ok extrinsic) t) :
    SignedText library t seen call key tip (toHex extrinsic) := by
  obtain ⟨version, _, seen₁, _, rfl, hversion, h₁⟩ := ran_bind_ok h
  obtain ⟨hash, _, seen₂, _, rfl, hgenesis, h₂⟩ := ran_bind_ok h₁
  obtain ⟨genesisHash, _, _, _, rfl, hread, h₃⟩ := ran_bind_ok h₂
  obtain ⟨rfl, genesisRead, rfl⟩ := ran_ofExcept hread
  obtain ⟨head, _, seen₄, _, rfl, hhead, h₄⟩ := ran_bind_ok h₃
  obtain ⟨blockHash, _, _, _, rfl, hblock, h₅⟩ := ran_bind_ok h₄
  obtain ⟨rfl, -, rfl⟩ := ran_ofExcept hblock
  obtain ⟨nonce, _, seen₆, _, rfl, hnonce, h₆⟩ := ran_bind_ok h₅
  obtain ⟨builder, _, _, _, rfl, hmake, h₇⟩ := ran_bind_ok h₆
  obtain ⟨rfl, made, rfl⟩ := ran_ofExcept hmake
  obtain ⟨rfl, built, rfl⟩ := ran_ofExcept h₇
  obtain ⟨e, decoded, signed⟩ := signedBy_of_ok made.symm hsize built.symm
  have later := (silent_getFinalizedHead hhead).grown.trans
    (silent_getAccountNonce _ hnonce).grown
  have known : t.cachedRuntimeVersion = some version :=
    later.version _ ((ran_getGenesisHash hgenesis).1.grown.version _
      ((ran_getRuntimeVersion hversion).2 version rfl))
  have kept : t.cachedGenesisHash = some hash :=
    later.genesis _ ((ran_getGenesisHash hgenesis).2 hash rfl)
  refine ⟨extrinsic, e, _, rfl, decoded, signed, ⟨version, known, rfl, rfl⟩,
    ⟨hash, kept, genesisRead.symm⟩, ⟨nonce, ?_, rfl⟩, rfl, rfl⟩
  apply (told_getAccountNonce hnonce).mono
  intro event hmem
  simp [hmem]

/-! ## What a session submits -/

theorem sends_submitExtrinsic (typeErrorText : Nat → String) (extrinsicHex : String) :
    Always (Sends (· = .array [.string extrinsicHex])) (submitExtrinsic typeErrorText extrinsicHex) := by
  have closed := sends_composes (· = .array [.string extrinsicHex])
  apply closed.always_catching
  · apply closed.always_bind
    · apply sends_rpcCall
      intro _
      rfl
    · intro response
      cases response with
      | string hash => exact closed.always_pure _
      | _ => exact closed.always_pure _
  · intro e
    exact closed.always_pure _

variable (library) in
/-- What an operation submits is the text that was handed in, or the signed call. -/
def Owed (operation : Operation) (t : SubstrateRpc) (seen : Seen) (params : Json) : Prop :=
  ∃ text, params = .array [.string text] ∧
    match operation with
    | .submitExtrinsic extrinsicHex => text = extrinsicHex
    | .buildAndSubmit call key tip => SignedText library t seen call key tip text
    | _ => False

theorem Owed.mono {operation : Operation} {t' : SubstrateRpc} {seen' : Seen}
    (h : Owed library operation t seen params) (grown : Grown t t')
    (more : ∀ event ∈ seen, event ∈ seen') : Owed library operation t' seen' params := by
  obtain ⟨text, rfl, howed⟩ := h
  refine ⟨text, rfl, ?_⟩
  cases operation with
  | submitExtrinsic extrinsicHex => exact howed
  | buildAndSubmit call key tip => exact SignedText.mono howed grown more
  | query | getRuntimeVersion | getGenesisHash => exact howed

/-- The memory of the machine bounds what a call takes. -/
def Operation.Fits : Operation → Prop
  | .buildAndSubmit call _ _ => call.callData.length < 2 ^ 63
  | _ => True

variable {typeErrorText : Nat → String}

theorem Sends.weaken {allowed allowed' : Json → Prop} (h : Sends allowed s seen t)
    (weaker : ∀ params, allowed params → allowed' params) : Sends allowed' s seen t :=
  ⟨h.grown, fun event hmem params hsub => weaker params (h.sent event hmem params hsub)⟩

theorem ran_signed_then_submit {call : PalletCall} {key : KeyPair} {tip : UInt64}
    (hsize : call.callData.length < 2 ^ 63) {result : Throws SubmitResult}
    (h : Ran (do
      let extrinsic ← signed library call key tip
      submitExtrinsic typeErrorText (toHex extrinsic)) s seen result t) :
    Sends (Owed library (.buildAndSubmit call key tip) t seen) s seen t := by
  rcases ran_bind h with ⟨e, hsigned, -⟩ | ⟨extrinsic, mid, before, after, rfl, hsigned, hsubmit⟩
  · exact (silent_signed library call key tip hsigned).weaken nofun
  · have submitted := sends_submitExtrinsic typeErrorText (toHex extrinsic) hsubmit
    apply (sends_composes _).append ((silent_signed library call key tip hsigned).weaken nofun)
    apply submitted.weaken
    rintro params rfl
    refine ⟨_, rfl, SignedText.mono (signedText_signed hsize hsigned) submitted.grown ?_⟩
    exact fun event => List.mem_append_left after

theorem ran_perform {operation : Operation} (fits : operation.Fits) {result : Throws Unit}
    (h : Ran (operation.perform typeErrorText library) s seen result t) :
    Sends (Owed library operation t seen) s seen t := by
  have closed := sends_composes (Owed library operation t seen)
  cases operation with
  | query q =>
    refine closed.always_bind (fun hcall => ?_) (fun _ => closed.always_pure ()) h
    exact (silent_rpcCall q.reads hcall).weaken nofun
  | getRuntimeVersion =>
    refine closed.always_bind (fun hcall => ?_) (fun _ => closed.always_pure ()) h
    exact (ran_getRuntimeVersion hcall).1.weaken nofun
  | getGenesisHash =>
    refine closed.always_bind (fun hcall => ?_) (fun _ => closed.always_pure ()) h
    exact (ran_getGenesisHash hcall).1.weaken nofun
  | submitExtrinsic extrinsicHex =>
    refine closed.always_bind (fun hcall => ?_) (fun _ => closed.always_pure ()) h
    apply (sends_submitExtrinsic typeErrorText extrinsicHex hcall).weaken
    exact fun params hparams => ⟨extrinsicHex, hparams, rfl⟩
  | buildAndSubmit call key tip =>
    have hrun : ∃ result, Ran (buildAndSubmit typeErrorText library call key tip) s seen result t := by
      rcases ran_bind h with ⟨e, hcall, -⟩ | ⟨_, mid, before, after, rfl, hcall, hend⟩
      · exact ⟨_, hcall⟩
      · obtain ⟨rfl, -, rfl⟩ := ran_pure hend
        rw [List.append_nil]
        exact ⟨_, hcall⟩
    obtain ⟨_, hcatch⟩ := hrun
    rcases ran_catching hcatch with ⟨_, hcall, -⟩ | ⟨e, mid, before, after, rfl, hcall, hend⟩
    · exact ran_signed_then_submit fits hcall
    · obtain ⟨rfl, -, rfl⟩ := ran_pure hend
      rw [List.append_nil]
      exact ran_signed_then_submit fits hcall

theorem ran_session {operations : List Operation} (fits : ∀ operation ∈ operations, operation.Fits)
    {result : Throws Unit} (h : Ran (session typeErrorText library operations) s seen result t) :
    Sends (fun params => ∃ operation ∈ operations, Owed library operation t seen params) s seen t := by
  induction operations generalizing s seen with
  | nil =>
    obtain ⟨rfl, -, rfl⟩ := ran_pure h
    exact (sends_composes _).nil t
  | cons operation operations ih =>
    obtain ⟨got, mid, before, after, rfl, hfirst, hrest⟩ := ran_settled_bind h
    have first := ran_perform (fits operation List.mem_cons_self) hfirst
    have rest := ih (fun operation hmem => fits operation (List.mem_cons_of_mem _ hmem)) hrest
    apply (sends_composes _).append
    · apply first.weaken
      intro params howed
      exact ⟨operation, List.mem_cons_self, howed.mono rest.grown fun _ => List.mem_append_left after⟩
    · apply rest.weaken
      rintro params ⟨later, hmem, howed⟩
      refine ⟨later, List.mem_cons_of_mem _ hmem, howed.mono (.refl t) fun _ => ?_⟩
      exact List.mem_append_right before

/-- **What a session submits.** However the node answers, each extrinsic that is posted is a text
that was handed in, or the signed form of a call: for the versions and the genesis hash that the
client still holds at the end, and at a nonce that the node told of the account. -/
theorem session_submissions (library : SigningLibrary) (typeErrorText : Nat → String)
    {operations : List Operation} (fits : ∀ operation ∈ operations, operation.Fits)
    {result : Throws Unit} (h : Ran (session typeErrorText library operations) s seen result t) :
    ∀ event ∈ seen, ∀ params, Submits event.1 params → ∃ text, params = .array [.string text] ∧
      (.submitExtrinsic text ∈ operations ∨ ∃ call key tip,
        .buildAndSubmit call key tip ∈ operations ∧ SignedText library t seen call key tip text) := by
  intro event hevent params hsub
  obtain ⟨operation, hmem, text, rfl, howed⟩ := (ran_session fits h).sent event hevent params hsub
  refine ⟨text, rfl, ?_⟩
  cases operation with
  | submitExtrinsic extrinsicHex =>
    cases howed
    exact .inl hmem
  | buildAndSubmit call key tip => exact .inr ⟨call, key, tip, hmem, howed⟩
  | query | getRuntimeVersion | getGenesisHash => cases howed

def zeroHash : String := "0x0000000000000000000000000000000000000000000000000000000000000000"

def answered (result : Json) : Throws Json := .ok (.object [("result", result)])

def remark : Operation := .buildAndSubmit ⟨0, 0, []⟩ ⟨List.replicate 64 1, List.replicate 32 2, [48]⟩ 0

def remarkBuilder : SigningBuilder where
  params := {
    genesisHash := List.replicate 32 0, blockHash := List.replicate 32 0
    specVersion := 3, txVersion := 2, nonce := 7 }
  builder := ⟨⟨List.replicate 32 0, List.replicate 32 0⟩, rfl, rfl⟩
  same := rfl

def remarkText : String :=
  toHex (Compact.encode 104 ++
    remarkBuilder.body zeroLibrary ⟨0, 0, []⟩ (List.replicate 64 1) (List.replicate 32 2))

/-- A node at block 0, and a session of one call. -/
def remarkSubmitted : Seen :=
  [⟨.post (request "state_getRuntimeVersion" (.array []) 1),
      answered (.object [("specVersion", .unsigned 3), ("transactionVersion", .unsigned 2)])⟩,
    ⟨.post (request "chain_getBlockHash" (.array [.unsigned 0]) 2), answered (.string zeroHash)⟩,
    ⟨.post (request "chain_getFinalizedHead" (.array []) 3), answered (.string zeroHash)⟩,
    ⟨.post (request "system_accountNextIndex" (.array [.string "0"]) 4), answered (.unsigned 7)⟩,
    ⟨.post (request "author_submitExtrinsic" (.array [.string remarkText]) 5),
      answered (.string "0x01")⟩]

def afterRemark : SubstrateRpc where
  requestId := 6
  cachedRuntimeVersion := some { specVersion := 3, txVersion := 2 }
  cachedGenesisHash := some zeroHash

theorem session_submissions_remark :
    ∃ text, Json.array [.string remarkText] = .array [.string text] ∧
      (.submitExtrinsic text ∈ [remark] ∨ ∃ call key tip,
        .buildAndSubmit call key tip ∈ [remark] ∧
          SignedText zeroLibrary afterRemark remarkSubmitted call key tip text) := by
  have h : Ran (session (fun _ => "") zeroLibrary [remark]) {} remarkSubmitted (.ok ()) afterRemark :=
    .ask (.ask (.ask (.ask (.ask (.done _)))))
  have posted : ⟨.post (request "author_submitExtrinsic" (.array [.string remarkText]) 5),
      answered (.string "0x01")⟩ ∈ remarkSubmitted := by simp [remarkSubmitted]
  apply session_submissions zeroLibrary (fun _ => "") ?_ h _ posted _ ⟨5, rfl⟩
  intro operation hmem
  rw [List.mem_singleton.mp hmem]
  exact Nat.two_pow_pos 63

end SubstrateRpc

end MidnightSdk.Network
