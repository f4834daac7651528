import MidnightSdk.Library.Stoull
import MidnightSdk.Library.TextSearch

/-!
# Addresses of a proof server

Three places read the host and the port out of the URL of a proof server, each in
its own way. They differ in whether the path is cut off before the colon of the
port is looked for.
-/

namespace MidnightSdk.Zk

open Cpp Stoull TextSearch

/-- `ProofServerClient::Config` -/
structure ProofServerConfig where
  host : List Char := "localhost".toList
  port : UInt16 := 6300
  timeoutMs : UInt32 := 30000
  useHttps : Bool := false
  deriving DecidableEq, Repr

/-- `std::stoul(text)`, which differs from `std::stoull` in what its exceptions say. -/
def stoul (text : List Char) : Throws UInt64 :=
  match Stoull.stoull 10 text with
  | .error (.invalidArgument _) => .error (.invalidArgument "stoul")
  | .error (.outOfRange _) => .error (.outOfRange "stoul")
  | other => other

/-- `text.rfind(c)` -/
def rfind (c : Char) (text : List Char) : Option Nat :=
  (text.reverse.idxOf? c).map fun i => text.length - 1 - i

/-- `proof_config_from_url` of the client. -/
def proofConfigFromUrl (url : List Char) (timeoutMs : UInt32) : Throws ProofServerConfig := do
  let (useHttps, port, rest) : Bool × UInt16 × List Char :=
    if "https://".toList.isPrefixOf url then (true, 443, url.drop 8)
    else if "http://".toList.isPrefixOf url then (false, 80, url.drop 7)
    else (false, 6300, url)
  let rest := match rest.idxOf? '/' with
    | some slash => rest.take slash
    | none => rest
  let config ← match rfind ':' rest with
    | some colon => do
      let port ← stoul (rest.drop (colon + 1))
      pure { host := rest.take colon, port := port.toUInt16, timeoutMs, useHttps }
    | none =>
      pure { host := rest, port := if port = 80 && !useHttps then 6300 else port, timeoutMs, useHttps }
  if config.host.isEmpty then .error (.runtimeError "Invalid proof server URL")
  else return config

/-- The text of the port behind a colon, up to the next slash. -/
def portText (rest : List Char) (colon : Nat) : List Char :=
  match (rest.drop colon).idxOf? '/' with
  | some slash => (rest.drop (colon + 1)).take (slash - 1)
  | none => rest.drop (colon + 1)

/-- What the constructor of `ContractManager` reads; under HTTPS the path is not looked for. -/
def contractManagerConfig (proofUrl : List Char) : Throws ProofServerConfig :=
  if "https://".toList.isPrefixOf proofUrl then
    let rest := proofUrl.drop 8
    match rest.idxOf? ':' with
    | some colon => do
      let port ← Stoull.stoi (rest.drop (colon + 1))
      return { host := rest.take colon, port := UInt16.ofInt port, useHttps := true }
    | none => return { host := rest, port := 443, useHttps := true }
  else
    let rest := if "http://".toList.isPrefixOf proofUrl then proofUrl.drop 7 else proofUrl
    match rest.idxOf? ':' with
    | some colon => do
      let port ← Stoull.stoi (portText rest colon)
      return { host := rest.take colon, port := UInt16.ofInt port }
    | none => return { host := rest, port := 6300 }

/-- What the constructor of `ContractInteractor` reads. -/
def contractInteractorConfig (proofServerUrl : List Char) : Throws ProofServerConfig :=
  let (useHttps, url) : Bool × List Char :=
    if "https://".toList.isPrefixOf proofServerUrl then (true, proofServerUrl.drop 8)
    else if "http://".toList.isPrefixOf proofServerUrl then (false, proofServerUrl.drop 7)
    else (false, proofServerUrl)
  match url.idxOf? ':' with
  | some colon => do
    let port ← Stoull.stoi (portText url colon)
    return { host := url.take colon, port := UInt16.ofInt port, useHttps }
  | none => return { host := url, port := if useHttps then 443 else 6300, useHttps }

/-! ## URLs -/

/-- `http(s)://host[:port][/path]` -/
structure ProofUrl where
  https : Bool
  host : List Char
  port : Option (List Char)
  path : Option (List Char)
  host_ne : host ≠ []
  host_free : ':' ∉ host ∧ '/' ∉ host
  port_digits : ∀ digits ∈ port, ∀ c ∈ digits, c.isDigit = true
  port_range : ∀ digits ∈ port, 1 ≤ decimalValue digits ∧ decimalValue digits ≤ 65535

namespace ProofUrl

variable (url : ProofUrl)

/-- What stands behind the scheme. -/
def rest : List Char :=
  url.host ++ ((url.port.map (':' :: ·)).getD [] ++ (url.path.map ('/' :: ·)).getD [])

def text : List Char := (if url.https then "https://" else "http://").toList ++ url.rest

def portNumber : Nat := match url.port with
  | some digits => decimalValue digits
  | none => if url.https then 443 else 6300

/-- A configuration that goes to the host, port and scheme of the URL. -/
def LeadsTo (config : ProofServerConfig) : Prop :=
  config.host = url.host ∧ config.port.toNat = url.portNumber ∧ config.useHttps = url.https

/-- All three read the URL, and read the same in it. -/
def ReadAlike (timeoutMs : UInt32) : Prop :=
  (∃ config, proofConfigFromUrl url.text timeoutMs = .ok config ∧ url.LeadsTo config) ∧
  (∃ config, contractManagerConfig url.text = .ok config ∧ url.LeadsTo config) ∧
  ∃ config, contractInteractorConfig url.text = .ok config ∧ url.LeadsTo config

/-! ## What is read -/

variable {url}

theorem port_ne {digits : List Char} (h : digits ∈ url.port) : digits ≠ [] := by
  rintro rfl
  exact Nat.not_succ_le_zero 0 (url.port_range [] h).1

theorem not_mem_digits {c : Char} (hc : c.isDigit = false) {digits : List Char}
    (h : digits ∈ url.port) : c ∉ digits := by
  intro hmem
  rw [url.port_digits digits h c hmem] at hc
  cases hc

/-- The scheme is told by the start of the text. -/
theorem scheme (url : ProofUrl) :
    (url.https = true ∧ "https://".toList.isPrefixOf url.text = true ∧ url.text.drop 8 = url.rest) ∨
    (url.https = false ∧ "https://".toList.isPrefixOf url.text = false ∧
      "http://".toList.isPrefixOf url.text = true ∧ url.text.drop 7 = url.rest) := by
  cases hs : url.https with
  | true =>
    refine .inl ⟨rfl, ?_, ?_⟩ <;> rw [text, hs] <;> rfl
  | false =>
    refine .inr ⟨rfl, ?_, ?_, ?_⟩ <;> rw [text, hs] <;> rfl

/-- The colon of a port is the first one. -/
theorem colon_of_port {digits : List Char} (h : url.port = some digits) :
    url.rest.idxOf? ':' = some url.host.length ∧ url.rest.take url.host.length = url.host ∧
    url.rest.drop url.host.length = ':' :: (digits ++ (url.path.map ('/' :: ·)).getD []) := by
  have parts : url.rest = url.host ++ ':' :: (digits ++ (url.path.map ('/' :: ·)).getD []) := by
    rw [rest, h]
    rfl
  rw [parts]
  exact ⟨idxOf?_append_cons url.host_free.1 _, List.take_left' rfl, List.drop_left' rfl⟩

/-- Behind the digits there is a path or nothing. -/
theorem leadingDigits_path (url : ProofUrl) :
    leadingDigits 10 ((url.path.map ('/' :: ·)).getD []) = [] := by
  cases url.path with
  | none => rfl
  | some path => rfl

theorem portText_of_port {digits : List Char} (h : url.port = some digits) :
    portText url.rest url.host.length = digits := by
  obtain ⟨-, -, behind⟩ := colon_of_port h
  have after : url.rest.drop (url.host.length + 1) =
      digits ++ (url.path.map ('/' :: ·)).getD [] := by
    rw [← List.drop_drop, behind]
    rfl
  have free : '/' ∉ ':' :: digits := by
    rw [List.mem_cons, not_or]
    exact ⟨by decide, not_mem_digits (by decide) h⟩
  rw [portText, behind, after, ← List.cons_append]
  cases url.path with
  | none =>
    rw [Option.map_none, Option.getD_none, List.append_nil, List.append_nil,
      List.idxOf?_eq_none_iff.mpr free]
  | some path =>
    rw [Option.map_some, Option.getD_some, idxOf?_append_cons free]
    exact List.take_left' rfl

theorem stoi_port {digits rest : List Char} (h : url.port = some digits)
    (hrest : leadingDigits 10 rest = []) :
    stoi (digits ++ rest) = .ok url.portNumber := by
  have range := url.port_range digits h
  rw [stoi_digits (url.port_digits digits h) (port_ne h) hrest, if_neg (by omega), portNumber, h]

/-- A port that is given is the one that is taken. -/
theorem toNat_ofInt_port {digits : List Char} (h : url.port = some digits) :
    (UInt16.ofInt url.portNumber).toNat = url.portNumber := by
  have range := url.port_range digits h
  have number : url.portNumber = decimalValue digits := by rw [portNumber, h]
  rw [number]
  change (UInt16.ofNat ((decimalValue digits : Int) % 2 ^ 16).toNat).toNat = _
  rw [UInt16.toNat_ofNat']
  omega

theorem defaultPort {https : Bool} (hport : url.port = none) (h : url.https = https) :
    url.portNumber = if https then 443 else 6300 := by
  rw [portNumber, hport, h]

/-! ## The client -/

/-- What is left when the path is cut off. -/
def authority (url : ProofUrl) : List Char := url.host ++ (url.port.map (':' :: ·)).getD []

theorem not_mem_authority (url : ProofUrl) : '/' ∉ url.authority := by
  rw [authority, List.mem_append, not_or]
  refine ⟨url.host_free.2, ?_⟩
  cases h : url.port with
  | none => exact List.not_mem_nil
  | some digits =>
    rw [Option.map_some, Option.getD_some, List.mem_cons, not_or]
    exact ⟨by decide, not_mem_digits (by decide) h⟩

theorem cut_path (url : ProofUrl) :
    (match url.rest.idxOf? '/' with
      | some slash => url.rest.take slash
      | none => url.rest) = url.authority := by
  have parts : url.rest = url.authority ++ (url.path.map ('/' :: ·)).getD [] := by
    rw [rest, authority, List.append_assoc]
  rw [parts]
  cases url.path with
  | none =>
    rw [Option.map_none, Option.getD_none, List.append_nil,
      List.idxOf?_eq_none_iff.mpr url.not_mem_authority]
  | some path =>
    rw [Option.map_some, Option.getD_some, idxOf?_append_cons url.not_mem_authority]
    exact List.take_left' rfl

theorem rfind_authority (url : ProofUrl) :
    rfind ':' url.authority = url.port.map fun _ => url.host.length := by
  cases h : url.port with
  | none =>
    have free : ':' ∉ url.host.reverse := fun hmem => url.host_free.1 (List.mem_reverse.mp hmem)
    rw [rfind, authority, h, Option.map_none, Option.getD_none, List.append_nil,
      List.idxOf?_eq_none_iff.mpr free]
    rfl
  | some digits =>
    have free : ':' ∉ digits.reverse := fun hmem =>
      not_mem_digits (by decide) h (List.mem_reverse.mp hmem)
    rw [rfind, authority, h, Option.map_some, Option.getD_some, List.reverse_append,
      List.reverse_cons, List.append_assoc, List.singleton_append, idxOf?_append_cons free,
      Option.map_some, Option.map_some, List.length_append, List.length_cons, List.length_reverse]
    congr 1
    omega

theorem stoul_port {digits : List Char} (h : url.port = some digits) :
    stoul digits = .ok (UInt64.ofNat url.portNumber) := by
  have range := url.port_range digits h
  have read := @stoull_digits digits [] (url.port_digits digits h) (port_ne h) rfl
  rw [List.append_nil, if_neg (by omega)] at read
  rw [stoul, read, portNumber, h]

/-- **The client reads every such URL right.** -/
theorem proofConfigFromUrl_leadsTo (url : ProofUrl) (timeoutMs : UInt32) :
    ∃ config, proofConfigFromUrl url.text timeoutMs = .ok config ∧ url.LeadsTo config := by
  cases hport : url.port with
  | none =>
    have last : rfind ':' url.authority = none := by rw [rfind_authority, hport]; rfl
    have whole : url.authority = url.host := by rw [authority, hport]; exact List.append_nil _
    rw [whole] at last
    refine ⟨{ host := url.host, port := if url.https then 443 else 6300, timeoutMs,
              useHttps := url.https }, ?_, rfl, ?_, rfl⟩
    · rcases url.scheme with ⟨hs, start, drop⟩ | ⟨hs, start, start', drop⟩
      · simp only [proofConfigFromUrl, start, if_true, drop, cut_path, whole, last, hs]
        simp [url.host_ne]
        rfl
      · simp only [proofConfigFromUrl, start, start', Bool.false_eq_true, if_false, if_true, drop,
          cut_path, whole, last, hs]
        simp [url.host_ne]
        rfl
    · rw [defaultPort hport rfl]
      split <;> rfl
  | some digits =>
    have last : rfind ':' url.authority = some url.host.length := by
      rw [rfind_authority, hport]
      rfl
    have parts : url.authority = url.host ++ ':' :: digits := by
      rw [authority, hport]
      rfl
    have front : url.authority.take url.host.length = url.host := by
      rw [parts]
      exact List.take_left' rfl
    have behind : url.authority.drop (url.host.length + 1) = digits := by
      rw [parts, ← List.drop_drop, List.drop_left' rfl]
      rfl
    have range := url.port_range digits hport
    have number : url.portNumber = decimalValue digits := by rw [portNumber, hport]
    refine ⟨{ host := url.host, port := (UInt64.ofNat url.portNumber).toUInt16, timeoutMs,
              useHttps := url.https }, ?_, rfl, ?_, rfl⟩
    · rcases url.scheme with ⟨hs, start, drop⟩ | ⟨hs, start, start', drop⟩
      · simp only [proofConfigFromUrl, start, if_true, drop, cut_path, last, front, behind,
          stoul_port hport, ok_bind, hs]
        simp [url.host_ne]
        rfl
      · simp only [proofConfigFromUrl, start, start', Bool.false_eq_true, if_false, if_true, drop,
          cut_path, last, front, behind, stoul_port hport, ok_bind, hs]
        simp [url.host_ne]
        rfl
    · rw [number]
      simp only [UInt64.toNat_toUInt16, UInt64.toNat_ofNat']
      omega

/-! ## The contract classes -/

/-- Without a port, and with a path, what is taken for the host goes on behind it. -/
theorem host_lt_of_path {path : List Char} (hport : url.port = none) (hpath : url.path = some path)
    {host : List Char} (h : host = url.rest ∨
      ∃ colon, url.rest.idxOf? ':' = some colon ∧ host = url.rest.take colon) :
    url.host.length < host.length := by
  have parts : url.rest = (url.host ++ ['/']) ++ path := by
    rw [rest, hport, hpath, List.append_assoc]
    rfl
  have free : ':' ∉ url.host ++ ['/'] := by
    rw [List.mem_append, not_or]
    exact ⟨url.host_free.1, by decide⟩
  rcases h with rfl | ⟨colon, found, rfl⟩
  · rw [parts]
    simp only [List.length_append, List.length_singleton]
    omega
  · rw [parts, idxOf?_append free] at found
    obtain ⟨i, hi, rfl⟩ := Option.map_eq_some_iff.mp found
    have inside : i < path.length := (List.idxOf?_eq_some_iff.mp hi).1
    rw [parts, List.length_take]
    simp only [List.length_append, List.length_singleton]
    omega

/-- Nothing behind the host is the host itself. -/
theorem rest_eq_host (hport : url.port = none) (hpath : url.path = none) :
    url.rest = url.host ∧ url.host.idxOf? ':' = none := by
  refine ⟨?_, List.idxOf?_eq_none_iff.mpr url.host_free.1⟩
  rw [rest, hport, hpath]
  simp

theorem contractInteractor_port {digits : List Char} (hport : url.port = some digits) :
    ∃ config, contractInteractorConfig url.text = .ok config ∧ url.LeadsTo config := by
  obtain ⟨colon, front, -⟩ := colon_of_port hport
  have read := @stoi_port url digits [] hport rfl
  rw [List.append_nil] at read
  refine ⟨{ host := url.host, port := UInt16.ofInt url.portNumber, useHttps := url.https },
    ?_, rfl, toNat_ofInt_port hport, rfl⟩
  rcases url.scheme with ⟨hs, start, drop⟩ | ⟨hs, start, start', drop⟩
  · simp only [contractInteractorConfig, start, if_true, drop, colon, front,
      portText_of_port hport, read, ok_bind, hs]
    rfl
  · simp only [contractInteractorConfig, start, start', Bool.false_eq_true, if_false, if_true,
      drop, colon, front, portText_of_port hport, read, ok_bind, hs]
    rfl

theorem contractManager_port {digits : List Char} (hport : url.port = some digits) :
    ∃ config, contractManagerConfig url.text = .ok config ∧ url.LeadsTo config := by
  obtain ⟨colon, front, behind⟩ := colon_of_port hport
  refine ⟨{ host := url.host, port := UInt16.ofInt url.portNumber, useHttps := url.https },
    ?_, rfl, toNat_ofInt_port hport, rfl⟩
  rcases url.scheme with ⟨hs, start, drop⟩ | ⟨hs, start, start', drop⟩
  · -- the path is still there, and reading the number stops in front of it
    have after : url.rest.drop (url.host.length + 1) =
        digits ++ (url.path.map ('/' :: ·)).getD [] := by
      rw [← List.drop_drop, behind]
      rfl
    simp only [contractManagerConfig, start, if_true, drop, colon, front, after,
      stoi_port hport url.leadingDigits_path, ok_bind, hs]
    rfl
  · have read := @stoi_port url digits [] hport rfl
    rw [List.append_nil] at read
    simp only [contractManagerConfig, start, start', Bool.false_eq_true, if_false, if_true,
      drop, colon, front, portText_of_port hport, read, ok_bind, hs]
    rfl

/-- Without a port it is that of the scheme. -/
theorem leadsTo_default (hport : url.port = none) :
    url.LeadsTo (if url.https then { host := url.host, port := 443, useHttps := true }
      else { host := url.host, port := 6300 }) := by
  cases hs : url.https with
  | true =>
    refine ⟨rfl, ?_, hs.symm⟩
    rw [defaultPort hport hs]
    rfl
  | false =>
    refine ⟨rfl, ?_, hs.symm⟩
    rw [defaultPort hport hs]
    rfl

theorem contractInteractor_default (hport : url.port = none) (hpath : url.path = none) :
    ∃ config, contractInteractorConfig url.text = .ok config ∧ url.LeadsTo config := by
  obtain ⟨whole, colon⟩ := rest_eq_host hport hpath
  refine ⟨_, ?_, leadsTo_default hport⟩
  rcases url.scheme with ⟨hs, start, drop⟩ | ⟨hs, start, start', drop⟩
  · simp only [contractInteractorConfig, start, if_true, drop, colon, whole, hs]
    rfl
  · simp only [contractInteractorConfig, start, start', Bool.false_eq_true, if_false, if_true,
      drop, colon, whole, hs]
    rfl

theorem contractManager_default (hport : url.port = none) (hpath : url.path = none) :
    ∃ config, contractManagerConfig url.text = .ok config ∧ url.LeadsTo config := by
  obtain ⟨whole, colon⟩ := rest_eq_host hport hpath
  refine ⟨_, ?_, leadsTo_default hport⟩
  rcases url.scheme with ⟨hs, start, drop⟩ | ⟨hs, start, start', drop⟩
  · simp only [contractManagerConfig, start, if_true, drop, colon, whole, hs]
    rfl
  · simp only [contractManagerConfig, start, start', Bool.false_eq_true, if_false, if_true,
      drop, colon, whole, hs]
    rfl

/-- Where the interactor finds a host, it is the text up to the first colon, or all of it. -/
theorem contractInteractor_host {config : ProofServerConfig}
    (h : contractInteractorConfig url.text = .ok config) :
    config.host = url.rest ∨
      ∃ colon, url.rest.idxOf? ':' = some colon ∧ config.host = url.rest.take colon := by
  rcases url.scheme with ⟨-, start, drop⟩ | ⟨-, start, start', drop⟩
  · simp only [contractInteractorConfig, start, if_true, drop] at h
    cases colon : url.rest.idxOf? ':' with
    | none =>
      rw [colon] at h
      cases h
      exact .inl rfl
    | some place =>
      rw [colon] at h
      obtain ⟨port, -, same⟩ := bind_eq_ok.mp h
      cases same
      exact .inr ⟨place, rfl, rfl⟩
  · simp only [contractInteractorConfig, start, start', Bool.false_eq_true, if_false, if_true,
      drop] at h
    cases colon : url.rest.idxOf? ':' with
    | none =>
      rw [colon] at h
      cases h
      exact .inl rfl
    | some place =>
      rw [colon] at h
      obtain ⟨port, -, same⟩ := bind_eq_ok.mp h
      cases same
      exact .inr ⟨place, rfl, rfl⟩

/-- **The three parsers agree exactly on the URLs with a port or without a path.** -/
theorem readAlike_iff (url : ProofUrl) (timeoutMs : UInt32) :
    url.ReadAlike timeoutMs ↔ url.port ≠ none ∨ url.path = none := by
  constructor
  · rintro ⟨-, -, config, read, leads⟩
    by_contra other
    obtain ⟨hport, hpath⟩ := not_or.mp other
    obtain ⟨path, hpath⟩ := Option.ne_none_iff_exists'.mp hpath
    have beyond := host_lt_of_path (not_not.mp hport) hpath (contractInteractor_host read)
    rw [leads.1] at beyond
    exact Nat.lt_irrefl _ beyond
  · intro h
    refine ⟨url.proofConfigFromUrl_leadsTo timeoutMs, ?_⟩
    cases hport : url.port with
    | some digits => exact ⟨contractManager_port hport, contractInteractor_port hport⟩
    | none =>
      have hpath := h.resolve_left (not_not_intro hport)
      exact ⟨contractManager_default hport hpath, contractInteractor_default hport hpath⟩

/-- `http://localhost/v1`, which has a path and no port. -/
def withPath : ProofUrl where
  https := false
  host := "localhost".toList
  port := none
  path := some "v1".toList
  host_ne := by decide
  host_free := by decide
  port_digits := nofun
  port_range := nofun

/-- The contract classes take the path for a part of the host. -/
theorem not_readAlike_withPath :
    contractManagerConfig withPath.text = .ok { host := "localhost/v1".toList, port := 6300 } ∧
    contractInteractorConfig withPath.text = .ok { host := "localhost/v1".toList, port := 6300 } ∧
    ¬withPath.ReadAlike 30000 := by
  refine ⟨rfl, rfl, ?_⟩
  rintro ⟨-, -, config, read, leads⟩
  cases read
  exact absurd leads.1 (by decide)

end ProofUrl

end MidnightSdk.Zk
