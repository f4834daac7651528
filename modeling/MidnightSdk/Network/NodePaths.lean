import MidnightSdk.Library.Stoul
import MidnightSdk.Library.TextSearch
import MidnightSdk.Network.MidnightNodeRpc
import MidnightSdk.Network.SubstrateRpc

/-!
# The paths to a node

A call is posted to one path after the other. A refusal of the node's own ends it, any other
failure moves on. An extrinsic that a frontend turned away goes out once more over a WebSocket.
-/

namespace MidnightSdk.Network

open Cpp HexText Interaction Tx TextSearch Util

structure NodeRpc where
  baseUrl : List Char
  requestIdCounter : UInt32 := 1
  deriving DecidableEq, Repr

namespace NodeRpc

def rpcPaths : List String := ["/", "/rpc"]

/-- A post waits for its response; a socket is opened for one request and closed again. -/
inductive Question where
  | post (path : String) (request : Json)
  | websocket (url : List Char) (request : Json)

abbrev Answer : Question → Type := fun _ => Throws Json

abbrev Act (α : Type) : Type := Action Question Answer NodeRpc Exception α

abbrev Seen : Type := List (Event Answer)

/-! ## Refusals of the node -/

/-- A character that the cut would split goes whole. -/
def takeBytes : Nat → List Char → List Char
  | _, [] => []
  | room, c :: text => if c.utf8Size ≤ room then c :: takeBytes (room - c.utf8Size) text else []

def truncateRpcErrorDetail (value : String) (maxLength : Nat) : String :=
  if value.utf8ByteSize ≤ maxLength then value
  else String.ofList (takeBytes maxLength value.toList) ++ "..."

def isDigit (c : Char) : Bool := '0' ≤ c && c ≤ '9'

/-- The code is read modulo 2 ^ 32. -/
def parseMidnightCustomErrorCode (value : List Char) : Option UInt32 :=
  let label := "Custom error:".toList
  match find label value with
  | none => none
  | some pos =>
    let digits := ((value.drop (pos + label.length)).dropWhile Stoul.isSpace).takeWhile isDigit
    if digits.isEmpty then none
    else some (digits.foldl (fun code c => code * 10 + UInt32.ofNat (c.toNat - '0'.toNat)) 0)

def midnightCustomErrorName (code : UInt32) : Option String :=
  match code.toNat with
  | 115 => some "Malformed.InvalidProof"
  | 126 => some "Malformed.Unbalanced"
  | 138 => some "Malformed.BalanceCheckOverspend"
  | 166 => some "Malformed.InvalidNetworkId"
  | 169 => some "Malformed.InvalidDustRegistrationSignature"
  | 170 => some "Malformed.InvalidDustSpendProof"
  | 171 => some "Malformed.OutOfDustValidityWindow"
  | 172 => some "Malformed.MultipleDustRegistrationsForKey"
  | 173 => some "Malformed.InsufficientDustForRegistrationFee"
  | 175 => some "Malformed.IntentSignatureVerificationFailure"
  | 179 => some "Malformed.UnsupportedProofVersion"
  | 195 => some "Invalid.InputNotInUtxos"
  | 196 => some "Invalid.DustDoubleSpend"
  | 228 => some "Malformed.TransactionApplication.IntentTtlExpired"
  | 229 => some "Malformed.TransactionApplication.IntentTtlTooFarInFuture"
  | 230 => some "Malformed.TransactionApplication.IntentAlreadyExists"
  | 235 => some "Malformed.Zswap.InvalidProof"
  | 241 => some "Invalid.Zswap.UnknownMerkleRoot"
  | 242 => some "Invalid.ReplayProtectionViolation.IntentTtlExpired"
  | 243 => some "Invalid.ReplayProtectionViolation.IntentTtlTooFarInFuture"
  | 244 => some "Invalid.ReplayProtectionViolation.IntentAlreadyExists"
  | _ => none

/-- What is said of the ledger's own error behind the rest. -/
def customErrorDetail (code : UInt32) : String :=
  " midnight_error_code=" ++ toString code.toNat ++
    (match midnightCustomErrorName code with
      | some name => " midnight_error=" ++ name
      | none => "") ++
    (if code = 171 then
      " hint=refresh the local ledger-state/source cache tail and rebuild; " ++
        "the DUST spend validity window was built from stale block time"
    else "")

section Calls

variable (dump : Json → String) (typeErrorText : Nat → String)

/-- An error without a readable message is itself an exception. -/
def rpcErrorDetail (errorObj : Json) : Throws String := do
  let code := match errorObj.find? "code" with
    | some code => "code=" ++ dump code ++ " "
    | none => ""
  let message ← errorObj.valueString "message" "Unknown RPC error"
  let data := match errorObj.find? "data" with
    | some .null | none => ""
    | some (.string data) =>
      " data=" ++ data ++ ((parseMidnightCustomErrorCode data.toList).map customErrorDetail).getD ""
    | some data => " data=" ++ dump data
  return truncateRpcErrorDetail (code ++ "message=" ++ message ++ data) 4096

/-- An `RpcApplicationError`, or another exception. -/
inductive Failure where
  | application (message : String)
  | other (e : Exception)

def Failure.toException : Failure → Exception
  | .application message => .runtimeError message
  | .other e => e

def readResponse (method missing : String) (response : Json) : Except Failure Json :=
  let result : Except Failure Json :=
    match response.find? "result" with
    | some result => .ok result
    | none => .error (.other (.runtimeError missing))
  match response.find? "error" with
  | some error =>
    if error.isNull then result
    else
      match rpcErrorDetail dump error with
      | .ok detail => .error (.application ("RPC " ++ method ++ " error: " ++ detail))
      | .error e => .error (.other e)
  | none => result

/-- What one exchange comes to. -/
def taken (method : String) : (q : Question) → Answer q → Except Failure Json
  | .post _ _, .ok response =>
    readResponse dump method "Invalid RPC response - missing result field" response
  | .websocket _ _, .ok response =>
    readResponse dump method "Invalid WebSocket RPC response - missing result field" response
  | _, .error e => .error (.other e)

def getNextRequestId : Act UInt32 := do
  let rpc ← Action.get
  Action.modify fun rpc => { rpc with requestIdCounter := rpc.requestIdCounter + 1 }
  return rpc.requestIdCounter

/-- The loop over the paths. -/
def tryPaths (method : String) (request : Json) : List String → List String → Act Json
  | [], pathErrors =>
    Action.throw (.runtimeError ("All RPC path attempts failed: " ++ " | ".intercalate pathErrors))
  | path :: paths, pathErrors => do
    let answer ← Action.ask (A := Answer) (.post path request)
    match taken dump method (.post path request) answer with
    | .ok result => return result
    | .error (.application message) => Action.throw (.runtimeError message)
    | .error (.other e) =>
      tryPaths method request paths (pathErrors ++ ["path " ++ path ++ ": " ++ e.what typeErrorText])

def rpcCall (method : String) (params : Json) : Act Json := do
  let id ← getNextRequestId
  tryPaths dump typeErrorText method (SubstrateRpc.request method params id) rpcPaths []

def websocketUrlFromHttpUrl (url : List Char) : List Char :=
  let ensurePath (value : List Char) : List Char :=
    let hostStart := match find "://".toList value with
      | some schemePos => schemePos + 3
      | none => 0
    if '/' ∈ value.drop hostStart then value else value ++ ['/']
  let https := "https://".toList
  let http := "http://".toList
  if https.isPrefixOf url then ensurePath ("wss://".toList ++ url.drop https.length)
  else if http.isPrefixOf url then ensurePath ("ws://".toList ++ url.drop http.length)
  else if "wss://".toList.isPrefixOf url || "ws://".toList.isPrefixOf url then ensurePath url
  else ensurePath ("wss://".toList ++ url)

def rpcCallWebsocket (method : String) (params : Json) : Act Json := do
  let id ← getNextRequestId
  let rpc ← Action.get
  let question := Question.websocket (websocketUrlFromHttpUrl rpc.baseUrl)
    (SubstrateRpc.request method params id)
  let answer ← Action.ask (A := Answer) question
  match taken dump method question answer with
  | .ok result => return result
  | .error failure => Action.throw failure.toException

def authorSubmitExtrinsic (payload : List Char) : Act Json :=
  let params := Json.array [.string (String.ofList payload)]
  (rpcCall dump typeErrorText "author_submitExtrinsic" params).catching fun e =>
    let httpError := e.what typeErrorText
    if !shouldTryWebsocketSubmitFallback httpError then
      Action.throw (.runtimeError ("author_submitExtrinsic failed: " ++ httpError))
    else
      (rpcCallWebsocket dump "author_submitExtrinsic" params).catching fun wsError =>
        Action.throw (.runtimeError
          ("author_submitExtrinsic failed over HTTP and WebSocket fallback: http=" ++ httpError ++
            " websocket=" ++ wsError.what typeErrorText))

/-- The transaction identifier in an answer. -/
def readTxId (response : Json) : Throws String := do
  let txId ← match response with
    | .string s => .ok s
    | _ => response.valueString "txId" ""
  if txId.isEmpty then
    throw (.runtimeError "Transaction submission response missing transaction identifier")
  return txId

def submitExtrinsic (extrinsicHex : List Char) : Act String := do
  let payload ← Action.ofExcept (extrinsicPayload extrinsicHex)
  let response ← authorSubmitExtrinsic dump typeErrorText payload
  Action.ofExcept (readTxId response)

def submitTransaction (txHex : List Char) : Act String := do
  let extrinsicHex ← Action.ofExcept (transactionExtrinsic txHex)
  submitExtrinsic dump typeErrorText extrinsicHex

end Calls

/-! ## The posts of a call -/

variable {dump : Json → String} {typeErrorText : Nat → String} {method : String} {request : Json}
variable {s t : NodeRpc} {seen : Seen}

variable (dump) in
/-- What an exchange came to. -/
abbrev outcome (method : String) (event : Event Answer) : Except Failure Json :=
  taken dump method event.1 event.2

variable (dump typeErrorText method request) in
/-- The posts to some paths, behind those that failed before. -/
inductive Tried : List String → List String → Seen → Throws Json → Prop
  | answered (path : String) (paths errors : List String) (answer : Throws Json) (result : Json)
      (took : taken dump method (.post path request) answer = .ok result) :
      Tried (path :: paths) errors [⟨.post path request, answer⟩] (.ok result)
  | refused (path : String) (paths errors : List String) (answer : Throws Json) (message : String)
      (took : taken dump method (.post path request) answer = .error (.application message)) :
      Tried (path :: paths) errors [⟨.post path request, answer⟩] (.error (.runtimeError message))
  | next (path : String) (paths errors : List String) (answer : Throws Json) (e : Exception)
      (seen : Seen) (result : Throws Json)
      (took : taken dump method (.post path request) answer = .error (.other e))
      (rest : Tried paths (errors ++ ["path " ++ path ++ ": " ++ e.what typeErrorText]) seen result) :
      Tried (path :: paths) errors (⟨.post path request, answer⟩ :: seen) result
  | exhausted (errors : List String) :
      Tried [] errors []
        (.error (.runtimeError ("All RPC path attempts failed: " ++ " | ".intercalate errors)))

/-- Induction is on the paths. -/
theorem ran_tryPaths {paths errors : List String} {result : Throws Json}
    (h : Ran (tryPaths dump typeErrorText method request paths errors) s seen result t) :
    t = s ∧ Tried dump typeErrorText method request paths errors seen result := by
  induction paths generalizing errors seen with
  | nil =>
    obtain ⟨rfl, rfl, rfl⟩ := ran_throw h
    exact ⟨rfl, .exhausted errors⟩
  | cons path paths ih =>
    obtain ⟨answer, rest, rfl, hrest⟩ := ran_ask_bind h
    generalize took : taken dump method (.post path request) answer = outcome at hrest
    cases outcome with
    | ok r =>
      obtain ⟨rfl, rfl, rfl⟩ := ran_pure hrest
      exact ⟨rfl, .answered path paths errors answer r took⟩
    | error failure =>
      cases failure with
      | application message =>
        obtain ⟨rfl, rfl, rfl⟩ := ran_throw hrest
        exact ⟨rfl, .refused path paths errors answer message took⟩
      | other e =>
        obtain ⟨rfl, tried⟩ := ih hrest
        exact ⟨rfl, .next path paths errors answer e rest result took tried⟩

def numbered (s : NodeRpc) : NodeRpc := { s with requestIdCounter := s.requestIdCounter + 1 }

theorem ran_getNextRequestId_bind {α : Type} {f : UInt32 → Act α} {result : Throws α}
    (h : Ran (getNextRequestId >>= f) s seen result t) :
    Ran (f s.requestIdCounter) s.numbered seen result t := h

theorem ran_rpcCall {params : Json} {result : Throws Json}
    (h : Ran (rpcCall dump typeErrorText method params) s seen result t) :
    t = s.numbered ∧ Tried dump typeErrorText method
      (SubstrateRpc.request method params s.requestIdCounter) rpcPaths [] seen result :=
  ran_tryPaths (ran_getNextRequestId_bind h)

/-- The request that goes over a socket. -/
def overSocket (s : NodeRpc) (method : String) (params : Json) : Question :=
  .websocket (websocketUrlFromHttpUrl s.baseUrl)
    (SubstrateRpc.request method params s.requestIdCounter)

theorem ran_rpcCallWebsocket {params : Json} {result : Throws Json}
    (h : Ran (rpcCallWebsocket dump method params) s seen result t) :
    ∃ answer, seen = [⟨s.overSocket method params, answer⟩] ∧ t = s.numbered ∧
      result = (taken dump method (s.overSocket method params) answer).mapError Failure.toException := by
  obtain ⟨answer, rest, rfl, hrest⟩ := ran_ask_bind (ran_get_bind (ran_getNextRequestId_bind h))
  refine ⟨answer, ?_⟩
  change Ran (match taken dump method (s.overSocket method params) answer with
    | .ok result => pure result
    | .error failure => Action.throw failure.toException) _ _ _ _ at hrest
  generalize taken dump method (s.overSocket method params) answer = outcome at hrest
  cases outcome with
  | ok r =>
    obtain ⟨rfl, rfl, rfl⟩ := ran_pure hrest
    exact ⟨rfl, rfl, rfl⟩
  | error failure =>
    obtain ⟨rfl, rfl, rfl⟩ := ran_throw hrest
    exact ⟨rfl, rfl, rfl⟩

theorem mapError_of_mapError_ok {ε ε' ε'' α : Type} {x : Except ε α} {f : ε → ε'} {g : ε → ε''}
    {a : α} (h : x.mapError f = .ok a) : x.mapError g = .ok a := by
  cases x with
  | ok b =>
    cases h
    rfl
  | error e => cases h

theorem mapError_of_mapError_error {ε ε' ε'' α : Type} {x : Except ε α} {f : ε → ε'} {g : ε' → ε''}
    {e : ε'} (h : x.mapError f = .error e) : x.mapError (fun e => g (f e)) = .error (g e) := by
  cases x with
  | ok b => cases h
  | error e' =>
    cases h
    rfl

/-! ## What a submission asks -/

def submission (payload : List Char) : Json := .array [.string (String.ofList payload)]

variable (dump typeErrorText) in
/-- The calls that are taken as given elsewhere, answered as they were in a run. -/
inductive Serves (rpc : MidnightNodeRpc) (payload : List Char) (s : NodeRpc) : Seen → Prop
  | http (posts : Seen) (result : Throws Json)
      (tried : Tried dump typeErrorText "author_submitExtrinsic"
        (SubstrateRpc.request "author_submitExtrinsic" (submission payload) s.requestIdCounter)
        rpcPaths [] posts result)
      (ends : ∀ e, result = .error e →
        shouldTryWebsocketSubmitFallback (e.what typeErrorText) = false)
      (call : rpc.rpcCall "author_submitExtrinsic" (submission payload) =
        result.mapError (·.what typeErrorText)) :
      Serves rpc payload s posts
  | socket (posts : Seen) (e : Exception) (answer : Throws Json)
      (tried : Tried dump typeErrorText "author_submitExtrinsic"
        (SubstrateRpc.request "author_submitExtrinsic" (submission payload) s.requestIdCounter)
        rpcPaths [] posts (.error e))
      (goesOn : shouldTryWebsocketSubmitFallback (e.what typeErrorText) = true)
      (call : rpc.rpcCall "author_submitExtrinsic" (submission payload) =
        .error (e.what typeErrorText))
      (again : rpc.rpcCallWebsocket "author_submitExtrinsic" (submission payload) =
        (taken dump "author_submitExtrinsic"
          (s.numbered.overSocket "author_submitExtrinsic" (submission payload)) answer).mapError
          (·.toException.what typeErrorText)) :
      Serves rpc payload s (posts ++
        [⟨s.numbered.overSocket "author_submitExtrinsic" (submission payload), answer⟩])

theorem ran_authorSubmitExtrinsic {payload : List Char} {result : Throws Json}
    (h : Ran (authorSubmitExtrinsic dump typeErrorText payload) s seen result t) :
    ∃ rpc : MidnightNodeRpc, result = rpc.authorSubmitExtrinsic payload ∧
      Serves dump typeErrorText rpc payload s seen := by
  rcases ran_catching h with ⟨r, hcall, rfl⟩ | ⟨e, mid, before, after, rfl, hcall, hend⟩
  · obtain ⟨rfl, tried⟩ := ran_rpcCall hcall
    refine ⟨⟨fun _ _ => .ok r, fun _ _ => .ok r⟩, rfl, .http _ _ tried ?_ rfl⟩
    intro e h
    cases h
  · obtain ⟨rfl, tried⟩ := ran_rpcCall hcall
    cases goesOn : shouldTryWebsocketSubmitFallback (e.what typeErrorText) with
    | false =>
      simp only [goesOn, Bool.not_false, if_true] at hend
      obtain ⟨rfl, rfl, rfl⟩ := ran_throw hend
      rw [List.append_nil]
      refine ⟨⟨fun _ _ => .error (e.what typeErrorText), fun _ _ => .error ""⟩, ?_,
        .http _ _ tried (fun e' h => ?_) rfl⟩
      · simp [MidnightNodeRpc.authorSubmitExtrinsic, goesOn]
      · cases h
        exact goesOn
    | true =>
      simp only [goesOn, Bool.not_true, Bool.false_eq_true, if_false] at hend
      have repeated := ran_catching hend
      rcases repeated with ⟨r, hsocket, rfl⟩ | ⟨wsError, _, _, _, rfl, hsocket, hthrow⟩
      · obtain ⟨answer, rfl, -, took⟩ := ran_rpcCallWebsocket hsocket
        refine ⟨⟨fun _ _ => .error (e.what typeErrorText), fun _ _ => .ok r⟩, ?_,
          .socket _ e answer tried goesOn rfl ?_⟩
        · simp [MidnightNodeRpc.authorSubmitExtrinsic, goesOn]
        · exact (mapError_of_mapError_ok took.symm).symm
      · obtain ⟨answer, rfl, -, took⟩ := ran_rpcCallWebsocket hsocket
        obtain ⟨rfl, rfl, rfl⟩ := ran_throw hthrow
        rw [List.append_nil]
        refine ⟨⟨fun _ _ => .error (e.what typeErrorText),
            fun _ _ => .error (wsError.what typeErrorText)⟩, ?_,
          .socket _ e answer tried goesOn rfl ?_⟩
        · simp [MidnightNodeRpc.authorSubmitExtrinsic, goesOn]
        · exact (mapError_of_mapError_error took.symm).symm

/-! ## How a submission ends -/

/-- Every answer but the last failed, and what is returned is the last one's. -/
def Settled {α : Type} (outcomes : Event Answer → Except Failure α) (seen : Seen)
    (result : Throws α) : Prop :=
  ∃ failed last, seen = failed ++ [last] ∧ (∀ event ∈ failed, (outcomes event).isOk = false) ∧
    ∀ r, result = .ok r ↔ outcomes last = .ok r

theorem settled_one {α : Type} {outcomes : Event Answer → Except Failure α} {event : Event Answer}
    {result : Throws α} (h : ∀ r, result = .ok r ↔ outcomes event = .ok r) :
    Settled outcomes [event] result := by
  refine ⟨[], event, rfl, ?_, h⟩
  intro event hmem
  cases hmem

theorem Settled.behind {α : Type} {outcomes : Event Answer → Except Failure α} {event : Event Answer}
    {result : Throws α} (h : Settled outcomes seen result) (fails : (outcomes event).isOk = false) :
    Settled outcomes (event :: seen) result := by
  obtain ⟨failed, last, rfl, hfailed, hlast⟩ := h
  exact ⟨event :: failed, last, rfl, List.forall_mem_cons.mpr ⟨fails, hfailed⟩, hlast⟩

theorem Tried.settled {paths errors : List String} {result : Throws Json}
    (h : Tried dump typeErrorText method request paths errors seen result) :
    (paths = [] ∧ seen = [] ∧ result.isOk = false) ∨
      Settled (outcome dump method) seen result := by
  induction h with
  | answered path paths errors answer result took =>
    apply Or.inr
    apply settled_one
    intro r
    rw [outcome, took]
    constructor <;> intro h <;> cases h <;> rfl
  | refused path paths errors answer message took =>
    apply Or.inr
    apply settled_one
    intro r
    rw [outcome, took]
    constructor <;> intro h <;> cases h
  | next path paths errors answer e seen result took rest ih =>
    apply Or.inr
    rcases ih with ⟨-, rfl, fails⟩ | settled
    · apply settled_one
      intro r
      rw [outcome, took]
      constructor
      · rintro rfl
        cases fails
      · intro h
        cases h
    · apply settled.behind
      rw [outcome, took]
      rfl
  | exhausted errors => exact .inl ⟨rfl, rfl, rfl⟩

theorem Settled.all_failed {α : Type} {outcomes : Event Answer → Except Failure α}
    {result : Throws α} (h : Settled outcomes seen result) (fails : result.isOk = false) :
    ∀ event ∈ seen, (outcomes event).isOk = false := by
  obtain ⟨failed, last, rfl, hfailed, hlast⟩ := h
  have hend : (outcomes last).isOk = false := by
    generalize took : outcomes last = got at hlast
    cases got with
    | ok r =>
      rw [(hlast r).mpr rfl] at fails
      cases fails
    | error failure => rfl
  rw [List.forall_mem_append]
  exact ⟨hfailed, by simpa using hend⟩

theorem ok_of_mapError {ε ε' α : Type} {x : Except ε α} {f : ε → ε'} {a : α} :
    x.mapError f = .ok a ↔ x = .ok a := by
  cases x with
  | ok b => rw [Except.mapError, Except.ok.injEq, Except.ok.injEq]
  | error e =>
    constructor <;> intro h <;> cases h

theorem authorSubmitExtrinsic_ended {rpc : MidnightNodeRpc} {payload : List Char} {r : Json}
    {answer : Except String Json}
    (call : rpc.rpcCall "author_submitExtrinsic" (submission payload) = answer)
    (ends : ∀ e, answer = .error e → shouldTryWebsocketSubmitFallback e = false) :
    rpc.authorSubmitExtrinsic payload = .ok r ↔ answer = .ok r := by
  rw [submission] at call
  simp only [MidnightNodeRpc.authorSubmitExtrinsic, call]
  cases answer with
  | ok response =>
    dsimp only
    rw [Except.ok.injEq, Except.ok.injEq]
  | error e => simp [ends e rfl]

theorem authorSubmitExtrinsic_goesOn {rpc : MidnightNodeRpc} {payload : List Char} {r : Json}
    {httpError : String}
    (call : rpc.rpcCall "author_submitExtrinsic" (submission payload) = .error httpError)
    (goesOn : shouldTryWebsocketSubmitFallback httpError = true) :
    rpc.authorSubmitExtrinsic payload = .ok r ↔
      rpc.rpcCallWebsocket "author_submitExtrinsic" (submission payload) = .ok r := by
  rw [submission] at call ⊢
  simp only [MidnightNodeRpc.authorSubmitExtrinsic, call, goesOn, Bool.not_true,
    Bool.false_eq_true, if_false]
  cases rpc.rpcCallWebsocket "author_submitExtrinsic" (.array [.string (String.ofList payload)]) with
  | ok response =>
    dsimp only
    rw [Except.ok.injEq, Except.ok.injEq]
  | error wsError =>
    constructor <;> intro h <;> cases h

theorem Serves.settled {rpc : MidnightNodeRpc} {payload : List Char}
    (h : Serves dump typeErrorText rpc payload s seen) :
    Settled (outcome dump "author_submitExtrinsic") seen (rpc.authorSubmitExtrinsic payload) := by
  cases h with
  | http _ result tried ends call =>
    rcases tried.settled with ⟨none, -⟩ | ⟨failed, last, rfl, hfailed, hlast⟩
    · cases none
    · refine ⟨failed, last, rfl, hfailed, fun r => ?_⟩
      rw [← hlast r, authorSubmitExtrinsic_ended call, ok_of_mapError]
      intro text htext
      cases result with
      | ok response => cases htext
      | error e =>
        cases htext
        exact ends e rfl
  | socket posts e answer tried goesOn call again =>
    rcases tried.settled with ⟨none, -⟩ | settled
    · cases none
    · refine ⟨posts, _, rfl, settled.all_failed rfl, fun r => ?_⟩
      rw [authorSubmitExtrinsic_goesOn call goesOn, again]
      exact ok_of_mapError

theorem Tried.asked {paths errors : List String} {result : Throws Json}
    (h : Tried dump typeErrorText method request paths errors seen result) :
    ∃ tried, tried <+: paths ∧ seen.map (·.1) = tried.map (Question.post · request) := by
  induction h with
  | answered path paths | refused path paths =>
    exact ⟨[path], ⟨paths, rfl⟩, rfl⟩
  | next path paths errors answer e seen result took rest ih =>
    obtain ⟨tried, hprefix, hseen⟩ := ih
    refine ⟨path :: tried, (List.prefix_cons_inj path).mpr hprefix, ?_⟩
    rw [List.map_cons, hseen]
    rfl
  | exhausted errors => exact ⟨[], List.prefix_rfl, rfl⟩

theorem Tried.begins {path : String} {paths errors : List String} {result : Throws Json}
    (h : Tried dump typeErrorText method request (path :: paths) errors seen result) :
    ∃ answer rest, seen = ⟨.post path request, answer⟩ :: rest := by
  cases h with
  | answered _ _ _ answer | refused _ _ _ answer => exact ⟨answer, [], rfl⟩
  | next _ _ _ answer e rest => exact ⟨answer, rest, rfl⟩

/-- A refusal of the node's own ends the posts. -/
theorem Tried.refusal {paths errors : List String} {result : Throws Json} {front back : Seen}
    {event : Event Answer} {message : String}
    (h : Tried dump typeErrorText method request paths errors seen result)
    (hsplit : seen = front ++ event :: back)
    (refuses : outcome dump method event = .error (.application message)) :
    back = [] ∧ result = .error (.runtimeError message) := by
  induction h generalizing front with
  | answered path paths errors answer result took =>
    cases front with
    | nil =>
      cases hsplit
      rw [outcome, took] at refuses
      cases refuses
    | cons first front => simp at hsplit
  | refused path paths errors answer said took =>
    cases front with
    | nil =>
      cases hsplit
      rw [outcome, took] at refuses
      cases refuses
      exact ⟨rfl, rfl⟩
    | cons first front => simp at hsplit
  | next path paths errors answer e seen result took rest ih =>
    cases front with
    | nil =>
      cases hsplit
      rw [outcome, took] at refuses
      cases refuses
    | cons first front =>
      obtain ⟨-, htail⟩ := List.cons.inj hsplit
      exact ih htail
  | exhausted errors => simp at hsplit

/-- Both paths, and then the socket under the next number. -/
def attempts (s : NodeRpc) (payload : List Char) : List Question :=
  rpcPaths.map (Question.post ·
      (SubstrateRpc.request "author_submitExtrinsic" (submission payload) s.requestIdCounter)) ++
    [s.numbered.overSocket "author_submitExtrinsic" (submission payload)]

variable (dump) in
/-- One extrinsic went out, over some of the ways and again only after a failure. A transaction
identifier comes from the last answer alone. -/
structure Delivered (s : NodeRpc) (payload : List Char) (seen : Seen) (result : Throws String) :
    Prop where
  asked : (seen.map (·.1)).Sublist (attempts s payload)
  begins : ∃ answer rest, seen = ⟨.post "/" (SubstrateRpc.request "author_submitExtrinsic"
    (submission payload) s.requestIdCounter), answer⟩ :: rest
  ends : ∃ failed last, seen = failed ++ [last] ∧
    (∀ event ∈ failed, (outcome dump "author_submitExtrinsic" event).isOk = false) ∧
    ∀ txId, result = .ok txId ↔ ∃ response,
      outcome dump "author_submitExtrinsic" last = .ok response ∧ readTxId response = .ok txId
  refused : ∀ front event back message, seen = front ++ event :: back →
    outcome dump "author_submitExtrinsic" event = .error (.application message) → back = [] ∨
      (shouldTryWebsocketSubmitFallback message = true ∧ ∃ answer,
        back = [⟨s.numbered.overSocket "author_submitExtrinsic" (submission payload), answer⟩])

theorem Serves.delivered {rpc : MidnightNodeRpc} {payload : List Char}
    (h : Serves dump typeErrorText rpc payload s seen) :
    Delivered dump s payload seen (rpc.send payload) := by
  obtain ⟨failed, last, hseen, hfailed, hlast⟩ := h.settled
  refine ⟨?_, ?_, ⟨failed, last, hseen, hfailed, fun txId => ?_⟩, ?_⟩
  · cases h with
    | http _ _ tried =>
      obtain ⟨paths, hstart, hasked⟩ := tried.asked
      rw [hasked, attempts]
      exact (hstart.sublist.map _).trans (List.sublist_append_left _ _)
    | socket posts e answer tried =>
      obtain ⟨paths, hstart, hasked⟩ := tried.asked
      rw [List.map_append, hasked, attempts]
      exact (hstart.sublist.map _).append (List.Sublist.refl _)
  · cases h with
    | http _ _ tried => exact tried.begins
    | socket posts e answer tried =>
      obtain ⟨first, rest, rfl⟩ := tried.begins
      exact ⟨first, _, rfl⟩
  · change (rpc.authorSubmitExtrinsic payload >>= readTxId) = .ok txId ↔ _
    rw [bind_eq_ok]
    apply exists_congr
    intro response
    rw [hlast]
  · intro front event back message hsplit refuses
    cases h with
    | http _ _ tried => exact .inl (tried.refusal hsplit refuses).1
    | socket posts e answer tried goesOn =>
      rcases back.eq_nil_or_concat with rfl | ⟨between, last, rfl⟩
      · exact .inl rfl
      · rw [List.concat_eq_append, ← List.cons_append, ← List.append_assoc] at hsplit
        obtain ⟨hposts, hlast⟩ := List.append_inj' hsplit rfl
        obtain ⟨rfl, he⟩ := tried.refusal hposts refuses
        cases he
        exact .inr ⟨goesOn, answer, hlast.symm⟩

/-- A payload is sent as the calls that are taken as given elsewhere would send it. -/
theorem ran_send {payload : List Char} {result : Throws String}
    (h : Ran (do
      let response ← authorSubmitExtrinsic dump typeErrorText payload
      Action.ofExcept (readTxId response)) s seen result t) :
    ∃ rpc : MidnightNodeRpc, result = rpc.send payload ∧
      Serves dump typeErrorText rpc payload s seen := by
  rcases ran_bind h with ⟨e, hauthor, rfl⟩ | ⟨response, mid, before, after, rfl, hauthor, hread⟩
  · obtain ⟨rpc, hresult, serves⟩ := ran_authorSubmitExtrinsic hauthor
    refine ⟨rpc, ?_, serves⟩
    change _ = (rpc.authorSubmitExtrinsic payload >>= readTxId)
    rw [← hresult]
    rfl
  · obtain ⟨rpc, hresult, serves⟩ := ran_authorSubmitExtrinsic hauthor
    obtain ⟨rfl, rfl, rfl⟩ := ran_ofExcept hread
    rw [List.append_nil]
    refine ⟨rpc, ?_, serves⟩
    change _ = (rpc.authorSubmitExtrinsic payload >>= readTxId)
    rw [← hresult]
    rfl

theorem readTxId_eq (response : Json) : ∃ read : Throws String, readTxId response =
    read >>= fun txId => if txId.isEmpty then
      .error (.runtimeError "Transaction submission response missing transaction identifier")
    else .ok txId := by
  cases response with
  | string s => exact ⟨.ok s, rfl⟩
  | _ => exact ⟨_, rfl⟩

theorem readTxId_ne_empty {response : Json} {txId : String} (h : readTxId response = .ok txId) :
    txId ≠ "" := by
  obtain ⟨read, eq⟩ := readTxId_eq response
  rw [eq] at h
  obtain ⟨s, -, hs⟩ := bind_eq_ok.mp h
  rintro rfl
  split at hs
  · cases hs
  next some =>
    cases hs
    exact some rfl

theorem submitted_ne_empty {txHex : List Char} {txId : String}
    (h : Ran (submitTransaction dump typeErrorText txHex) s seen (.ok txId) t) : txId ≠ "" := by
  obtain ⟨extrinsicHex, _, _, _, rfl, -, h₁⟩ := ran_bind_ok h
  obtain ⟨payload, _, _, _, rfl, -, h₂⟩ := ran_bind_ok h₁
  obtain ⟨response, _, _, _, rfl, -, h₃⟩ := ran_bind_ok h₂
  obtain ⟨-, read, -⟩ := ran_ofExcept h₃
  exact readTxId_ne_empty read.symm

/-- The extrinsic depends on the bytes of the transaction alone. -/
theorem ran_submitTransaction {lead text : List Char} {tx : List UInt8}
    (hlead : lead ∈ [[], ['0', 'x'], ['0', 'X']]) (spells : Spells text tx) (hne : text ≠ [])
    (hsize : text.length < 2 ^ 63) :
    ∃ hex extrinsic, Spells hex extrinsic ∧
      decodeExtrinsic extrinsic = some ⟨0x04, midnightPallet, 0x00, tx⟩ ∧
      transactionExtrinsic (lead ++ text) = .ok (['0', 'x'] ++ hex) ∧
      ∀ {s seen result t}, Ran (submitTransaction dump typeErrorText (lead ++ text)) s seen result t →
        Delivered dump s (['0', 'x'] ++ hex) seen result := by
  obtain ⟨extrinsic, built, decoded⟩ := transactionExtrinsic_spells hlead spells hne hsize
  have written := bytesToHex_spells extrinsic
  refine ⟨bytesToHex extrinsic, extrinsic, written, decoded, built, ?_⟩
  intro s seen result t h
  rw [submitTransaction, built] at h
  have hsubmit := ran_pure_bind h
  rw [submitExtrinsic, extrinsicPayload_spells written (hex_of_extrinsic decoded)] at hsubmit
  obtain ⟨rpc, rfl, serves⟩ := ran_send (ran_pure_bind hsubmit)
  exact serves.delivered

/-- **A transaction on its way to the node.** Whatever comes back, one extrinsic goes out, whose only
argument is the transaction: at most twice over HTTP and once over a socket, again only after a
failure, and a refusal of the node's own is repeated over the socket or not at all. -/
theorem submitTransaction_delivered {lead text : List Char}
    (hlead : lead ∈ [[], ['0', 'x'], ['0', 'X']]) (hdigits : ∀ c ∈ text, c ∈ digits)
    (heven : text.length % 2 = 0) (hsize : text.length < 2 ^ 63) {result : Throws String}
    (h : Ran (submitTransaction dump typeErrorText (lead ++ text)) s seen result t) :
    ∃ tx, Spells text tx ∧
      if text = [] then
        seen = [] ∧ result = .error (.runtimeError "Midnight transaction bytes cannot be empty")
      else ∃ hex extrinsic, Spells hex extrinsic ∧
        decodeExtrinsic extrinsic = some ⟨0x04, 5, 0x00, tx⟩ ∧
        Delivered dump s (['0', 'x'] ++ hex) seen result := by
  obtain ⟨tx, spells⟩ := exists_spells hdigits heven
  refine ⟨tx, spells, ?_⟩
  by_cases hne : text = []
  · rw [if_pos hne]
    have clean := stripHexPrefix_digits hlead hdigits
    have refused : transactionExtrinsic (lead ++ text) =
        .error (.runtimeError "Midnight transaction bytes cannot be empty") := by
      rw [transactionExtrinsic, clean, hne]
      rfl
    rw [submitTransaction, refused] at h
    rcases ran_bind h with ⟨e, hrefused, rfl⟩ | ⟨_, _, _, _, _, hrefused, -⟩
    · obtain ⟨rfl, he, -⟩ := ran_throw hrefused
      cases he
      exact ⟨rfl, rfl⟩
    · obtain ⟨-, he, -⟩ := ran_throw hrefused
      cases he
  · rw [if_neg hne]
    obtain ⟨hex, extrinsic, written, decoded, -, delivers⟩ :=
      ran_submitTransaction hlead spells hne hsize
    exact ⟨hex, extrinsic, written, decoded, delivers h⟩

/-- The first path is not answered. -/
def onSecondPath : Seen :=
  let request := SubstrateRpc.request "author_submitExtrinsic" (submission "0x18040500080aff".toList) 1
  [⟨.post "/" request, .error (.runtimeError "HTTP request failed: Connection")⟩,
    ⟨.post "/rpc" request, .ok (.object [("result", .string "0x01")])⟩]

def node : NodeRpc := { baseUrl := "http://node".toList }

theorem submitTransaction_delivered_onSecondPath :
    ∃ tx, Spells ['0', 'a', 'F', 'f'] tx ∧
      if ['0', 'a', 'F', 'f'] = [] then
        onSecondPath = [] ∧ (.ok "0x01" : Throws String) =
          .error (.runtimeError "Midnight transaction bytes cannot be empty")
      else ∃ hex extrinsic, Spells hex extrinsic ∧
        decodeExtrinsic extrinsic = some ⟨0x04, 5, 0x00, tx⟩ ∧
        Delivered (fun _ => "") node (['0', 'x'] ++ hex) onSecondPath (.ok "0x01") := by
  have h : Ran (submitTransaction (fun _ => "") (fun _ => "") (['0', 'x'] ++ ['0', 'a', 'F', 'f']))
      node onSecondPath (.ok "0x01") node.numbered := .ask (.ask (.done _))
  exact submitTransaction_delivered (by decide) (List.forall_iff_forall_mem.mp (by decide)) rfl
    (by decide) h

end NodeRpc

end MidnightSdk.Network
