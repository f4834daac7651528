import Mathlib.Data.List.DropRight
import MidnightSdk.Network.NodePaths
import MidnightSdk.Zk.ProofServerUrls

/-!
# Where requests go

The clients of a node and of an indexer and the plain HTTP client each read their URL. The
indexer's client writes a URL of its own first, which the client below it reads again.
-/

namespace MidnightSdk.Network

open Cpp Stoull TextSearch Zk

/-- One request: the server it is for, and the path it asks for. -/
structure Endpoint where
  useTls : Bool
  host : List Char
  port : Int
  path : List Char
  deriving DecidableEq, Repr

/-- The slashes at the end, of the text backwards. -/
def popBack : List Char → List Char
  | c :: d :: text => if c = '/' then popBack (d :: text) else c :: d :: text
  | text => text

/-- `while (path.size() > 1 && path.back() == '/') path.pop_back()` -/
def popSlashes (path : List Char) : List Char := (popBack path.reverse).reverse

theorem popBack_cons {text : List Char} (ne : text ≠ []) :
    popBack ('/' :: text) = popBack text := by
  cases text with
  | nil => exact absurd rfl ne
  | cons c text => rw [popBack, if_pos rfl]

theorem popBack_of_ne {c : Char} (hc : c ≠ '/') (text : List Char) :
    popBack (c :: text) = c :: text := by
  cases text with
  | nil => rfl
  | cons d text => rw [popBack, if_neg hc]

theorem popBack_replicate_append {c : Char} (hc : c ≠ '/') (n : Nat) (text : List Char) :
    popBack (List.replicate n '/' ++ c :: text) = c :: text := by
  induction n with
  | zero => exact popBack_of_ne hc text
  | succ n ih =>
    rw [List.replicate_succ, List.cons_append, popBack_cons (by simp)]
    exact ih

/-- What does not end in a slash is left. -/
theorem popSlashes_append {front : List Char} (ne : front ≠ []) (ends : front.getLast? ≠ some '/')
    (n : Nat) : popSlashes (front ++ List.replicate n '/') = front := by
  rw [popSlashes, List.reverse_append, List.reverse_replicate]
  cases backwards : front.reverse with
  | nil => exact absurd (List.reverse_eq_nil_iff.mp backwards) ne
  | cons c text =>
    have hc : c ≠ '/' := by
      rintro rfl
      rw [← List.head?_reverse, backwards] at ends
      exact ends rfl
    rw [popBack_replicate_append hc, ← backwards, List.reverse_reverse]

theorem popSlashes_of_ends {front : List Char} (ends : front.getLast? ≠ some '/') :
    popSlashes front = front := by
  cases front with
  | nil => rfl
  | cons c front =>
    have left := popSlashes_append (List.cons_ne_nil c front) ends 0
    rwa [List.replicate_zero, List.append_nil] at left

namespace NetworkClient

structure ParsedEndpoint where
  host : List Char := []
  port : UInt16 := 80
  pathPrefix : List Char := []
  useTls : Bool := false
  deriving DecidableEq, Repr

/-- Without the scheme, and what the scheme says. -/
def parseScheme (url : List Char) : Bool × UInt16 × List Char :=
  if "https://".toList.isPrefixOf url then (true, 443, url.drop 8)
  else if "http://".toList.isPrefixOf url then (false, 80, url.drop 7)
  else if "wss://".toList.isPrefixOf url then (true, 443, url.drop 6)
  else if "ws://".toList.isPrefixOf url then (false, 80, url.drop 5)
  else (false, 80, url)

def parseUrl (url : List Char) : Throws ParsedEndpoint :=
  let (useTls, port, rest) := parseScheme url
  match rest.idxOf? '/', rest.idxOf? ':' with
  | some slashPos, some colonPos =>
    if colonPos < slashPos then do
      let port ← stoi ((rest.drop (colonPos + 1)).take (slashPos - colonPos - 1))
      return ⟨rest.take colonPos, UInt16.ofInt port, rest.drop slashPos, useTls⟩
    else return ⟨rest.take slashPos, port, rest.drop slashPos, useTls⟩
  | none, some colonPos => do
    let port ← stoi (rest.drop (colonPos + 1))
    return ⟨rest.take colonPos, UInt16.ofInt port, [], useTls⟩
  | some slashPos, none => return ⟨rest.take slashPos, port, rest.drop slashPos, useTls⟩
  | none, none => return ⟨rest, port, [], useTls⟩

/-- `join_request_path` -/
def joinRequestPath (pathPrefix path : List Char) : List Char :=
  let normalized := popSlashes pathPrefix
  if normalized.isEmpty then if path.isEmpty then ['/'] else path
  else if path.isEmpty || path = ['/'] then normalized
  else if normalized.getLast? = some '/' && path.head? = some '/' then normalized ++ path.drop 1
  else if normalized.getLast? ≠ some '/' && path.head? ≠ some '/' then normalized ++ '/' :: path
  else normalized ++ path

/-- Where a request for a path goes. -/
def target (baseUrl path : List Char) : Throws Endpoint := do
  let ep ← parseUrl baseUrl
  return ⟨ep.useTls, ep.host, ep.port.toNat, joinRequestPath ep.pathPrefix path⟩

end NetworkClient

namespace IndexerClient

structure ParsedUrl where
  scheme : List Char
  host : List Char
  port : UInt16
  path : List Char
  deriving DecidableEq, Repr

def parseUrl (url : List Char) : Throws ParsedUrl :=
  let (scheme, rest) := match find "://".toList url with
    | some schemeEnd => (url.take schemeEnd, url.drop (schemeEnd + 3))
    | none => ("http".toList, url)
  let (hostPort, path) := match rest.idxOf? '/' with
    | some pathStart => (rest.take pathStart, rest.drop pathStart)
    | none => (rest, ['/'])
  match hostPort.idxOf? ':' with
  | some colonPos => do
    let port ← stoi (hostPort.drop (colonPos + 1))
    return ⟨scheme, hostPort.take colonPos, UInt16.ofInt port, path⟩
  | none => return ⟨scheme, hostPort, if scheme = "https".toList then 443 else 80, path⟩

/-- The URL that the constructor makes for the client below. -/
def baseUrl (graphqlUrl : List Char) : Throws (List Char) := do
  let parsed ← parseUrl graphqlUrl
  let server := parsed.scheme ++ "://".toList ++ parsed.host ++
    ':' :: Nat.toDigits 10 parsed.port.toNat
  let path := popSlashes parsed.path
  return match rfind '/' path with
    | some lastSlash => if lastSlash ≠ 0 then server ++ path.take lastSlash else server
    | none => server ++ path

/-- The path that `execute_graphql` posts to. -/
def remainingPath (graphqlUrl : List Char) : Throws (List Char) := do
  let parsed ← parseUrl graphqlUrl
  let path := popSlashes parsed.path
  return match rfind '/' path with
    | some lastSlash =>
      if lastSlash < path.length - 1 then path.drop lastSlash else "/graphql".toList
    | none => "/graphql".toList

/-- Where a query goes. -/
def target (graphqlUrl : List Char) : Throws Endpoint := do
  let base ← baseUrl graphqlUrl
  let path ← remainingPath graphqlUrl
  NetworkClient.target base path

end IndexerClient

namespace HttpClient

/-- Where `send_request` goes. Without a path, what stands behind the colon is not read. -/
def target (url : List Char) : Throws Endpoint :=
  let (useTls, port, rest) : Bool × Int × List Char :=
    if "https://".toList.isPrefixOf url then (true, 443, url.drop 8)
    else if "http://".toList.isPrefixOf url then (false, 80, url.drop 7)
    else (false, 80, url)
  match rest.idxOf? ':', rest.idxOf? '/' with
  | some colonPos, some slashPos =>
    if colonPos < slashPos then do
      let port ← stoi ((rest.drop (colonPos + 1)).take (slashPos - colonPos - 1))
      return ⟨useTls, rest.take colonPos, port, rest.drop slashPos⟩
    else return ⟨useTls, rest.take slashPos, port, rest.drop slashPos⟩
  | some colonPos, none => return ⟨useTls, rest.take colonPos, port, ['/']⟩
  | none, some slashPos => return ⟨useTls, rest.take slashPos, port, rest.drop slashPos⟩
  | none, none => return ⟨useTls, rest, port, ['/']⟩

end HttpClient

/-! ## What a URL says -/

namespace UrlOf

variable (url : ProofUrl)

def schemePort : Nat := if url.https then 443 else 80

/-- The port that is given, or the one of the scheme. -/
def serverPort : Nat := match url.port with
  | some digits => decimalValue digits
  | none => schemePort url

/-- The request goes to the server of the URL. -/
def Reaches (endpoint : Endpoint) : Prop :=
  endpoint.useTls = url.https ∧ endpoint.host = url.host ∧ endpoint.port = serverPort url

/-- The path of a query: the last segment behind the directory, however many slashes there are
between them and at the end. -/
inductive Asks : List Char → List Char → Prop
  | root {path : List Char} (slashes : ∀ c ∈ path, c = '/') : Asks path "/graphql".toList
  | segment (directory last : List Char) (between behind : Nat)
      (ends : directory.getLast? ≠ some '/') (ne : last ≠ []) (free : '/' ∉ last) :
      Asks (directory ++ List.replicate between '/' ++ '/' :: last ++ List.replicate behind '/')
        (directory ++ '/' :: last)

/-! ## Reading it -/

variable {url}

def scheme (url : ProofUrl) : List Char := (if url.https then "https" else "http").toList

example : IndexerClient.target "https://localhost/api/v3//graphql/".toList =
    .ok ⟨true, "localhost".toList, 443, "/api/v3/graphql".toList⟩ := by rfl

example : HttpClient.target "http://localhost:6300".toList =
    .ok ⟨false, "localhost".toList, 80, "/".toList⟩ := by rfl

end UrlOf

end MidnightSdk.Network
