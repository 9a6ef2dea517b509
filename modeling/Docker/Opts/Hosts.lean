import Mathlib
import Docker.Dockerfile.Parser
import Docker.Parsers.UintList
import Docker.Reasoning.GoNet

/-!
# Hosts — the daemon's `-H` addresses

`ParseHost` trims the address, fills in the default for an empty one, and otherwise splits off the
protocol: `unix` and `npipe` addresses get their default path when they have none, `fd` addresses
are kept, and `tcp` addresses go through `url.Parse` and are rebuilt from its host, port and path,
with the default host and port where they are missing.

For `unix`, `npipe` and `fd` addresses the result parses back to itself
(`parseHost_idempotent_of_not_tcp`).  For `tcp` it need not: the path is printed back as `url.Parse`
decoded it, so an escaped `?` in the path comes back as a query on the next parse
(`parseHost_not_idempotent`).  The platform is unix: `DefaultHTTPHost` is `localhost`.
-/

namespace Docker.Opts

open Docker.Dockerfile (trimSpace trimLeftSpace isSpace)
open Reasoning.GoNet (cut contains trimPrefix hasSuffix urlParse splitHostPort joinHostPort
  eq_append_of_cut_eq_some cut_append_of_not_mem trimPrefix_suffix trimPrefix_of_cut_eq_none)

/-! ## 1. The defaults and the parsers -/

def defaultHTTPHost : List Char := "localhost".toList

def defaultHTTPPort : List Char := "2375".toList

def defaultTLSHTTPPort : List Char := "2376".toList

def defaultUnixSocket : List Char := "/var/run/docker.sock".toList

def defaultNamedPipe : List Char := "//./pipe/docker_engine".toList

def defaultTCPHost : List Char := "tcp://".toList ++ defaultHTTPHost ++ ':' :: defaultHTTPPort

def defaultTLSHost : List Char := "tcp://".toList ++ defaultHTTPHost ++ ':' :: defaultTLSHTTPPort

def defaultHost : List Char := "unix://".toList ++ defaultUnixSocket

/-- `parseSimpleProtoAddr(proto, addr, defaultAddr)`. -/
def parseSimpleProtoAddr (proto addr defaultAddr : List Char) : Except String (List Char) :=
  let addr := trimPrefix addr (proto ++ "://".toList)
  if contains addr "://".toList then
    .error ("Invalid proto, expected " ++ String.ofList proto ++ ": " ++ String.ofList addr)
  else
    let addr := if addr = [] then defaultAddr else addr
    .ok (proto ++ "://".toList ++ addr)

/-- `p, err := strconv.Atoi(port)` fails with `p == 0`: a syntax error.  Out of range, `Atoi`
returns the bound, which is not `0`. -/
def atoiSyntaxError (port : List Char) : Bool :=
  let ds := (Docker.Parsers.splitSign port).2
  ds.isEmpty || !ds.all Char.isDigit

/-- `ParseTCPAddr(tryAddr, defaultAddr)`. -/
def parseTCPAddr (tryAddr defaultAddr : List Char) : Except String (List Char) :=
  if tryAddr = [] ∨ tryAddr = "tcp://".toList then .ok defaultAddr
  else
    let addr := trimPrefix tryAddr "tcp://".toList
    if contains addr "://".toList ∨ addr = [] then
      .error ("Invalid proto, expected tcp: " ++ String.ofList tryAddr)
    else
      match splitHostPort (trimPrefix defaultAddr "tcp://".toList) with
      | .error e => .error e
      | .ok (defaultHost, defaultPort) =>
        -- `url.Parse` fails for a trailing colon after IPv6 brackets on Go 1.5
        let addr := if hasSuffix addr "]:".toList then addr ++ defaultPort else addr
        match urlParse ("tcp://".toList ++ addr) with
        | .error e => .error e
        | .ok u =>
          -- try port addition once
          let hostPort : Except String (List Char × List Char) :=
            match splitHostPort u.host with
              | .ok hp => .ok hp
              | .error _ => splitHostPort (joinHostPort u.host defaultPort)
          match hostPort with
          | .error _ => .error ("Invalid bind address format: " ++ String.ofList tryAddr)
          | .ok (host, port) =>
            let host := if host = [] then defaultHost else host
            let port := if port = [] then defaultPort else port
            if atoiSyntaxError port then
              .error ("Invalid bind address format: " ++ String.ofList tryAddr)
            else .ok ("tcp://".toList ++ joinHostPort host port ++ u.path)

/-- `parseDockerDaemonHost(addr)`. -/
def parseDockerDaemonHost (addr : List Char) : Except String (List Char) :=
  -- `strings.SplitN(addr, "://", 2)`; without a protocol, `tcp`
  let addrParts : List Char × List Char :=
    match cut addr "://".toList with
    | some parts => parts
    | none => if addr ≠ [] then ("tcp".toList, addr) else (addr, [])
  if addrParts.1 = "tcp".toList then parseTCPAddr addrParts.2 defaultTCPHost
  else if addrParts.1 = "unix".toList then
    parseSimpleProtoAddr "unix".toList addrParts.2 defaultUnixSocket
  else if addrParts.1 = "npipe".toList then
    parseSimpleProtoAddr "npipe".toList addrParts.2 defaultNamedPipe
  else if addrParts.1 = "fd".toList then .ok addr
  else .error ("Invalid bind address format: " ++ String.ofList addr)

/-- `ParseHost(defaultToTLS, val)`: the host, and the error. -/
def parseHost (defaultToTLS : Bool) (val : List Char) : List Char × Option String :=
  let host := trimSpace val
  if host = [] then (if defaultToTLS then defaultTLSHost else defaultHost, none)
  else
    match parseDockerDaemonHost host with
    | .error e => (val, some e)
    | .ok host => (host, none)

/-! ## 2. Trimmed text -/

/-- Text that `strings.TrimSpace` keeps as it is: no space at either end. -/
def Trimmed (s : List Char) : Prop :=
  (∀ c ∈ s.head?, isSpace c = false) ∧ ∀ c ∈ s.getLast?, isSpace c = false

theorem trimSpace_of_trimmed {s : List Char} (h : Trimmed s) : trimSpace s = s := by
  cases s with
  | nil => rfl
  | cons c t =>
    have hleft : trimLeftSpace (c :: t) = c :: t :=
      List.dropWhile_cons_of_neg (by simp [h.1 c rfl])
    -- the right end: `trimSpace` is `rdropWhile` after `dropWhile`
    show List.rdropWhile isSpace (trimLeftSpace (c :: t)) = c :: t
    rw [hleft, List.rdropWhile_eq_self_iff]
    intro hl
    simp [h.2 _ (List.getLast?_eq_some_getLast hl)]

theorem trimmed_trimSpace (s : List Char) : Trimmed (trimSpace s) := by
  have hr : trimSpace s = List.rdropWhile isSpace (trimLeftSpace s) := rfl
  constructor
  · -- the head of a prefix of `dropWhile isSpace s`
    intro c hc
    obtain ⟨t, ht⟩ := List.rdropWhile_prefix isSpace (trimLeftSpace s)
    have hd : (s.dropWhile isSpace).head? = some c := by
      rw [← trimLeftSpace, ← ht, List.head?_append, ← hr, Option.mem_def.mp hc]
      rfl
    have hnot := List.head?_dropWhile_not isSpace s
    rw [hd] at hnot
    exact hnot
  · intro c hc
    rw [hr, Option.mem_def] at hc
    have hne : List.rdropWhile isSpace (trimLeftSpace s) ≠ [] := by
      intro hnil
      rw [hnil] at hc
      cases hc
    rw [List.getLast?_eq_some_getLast hne, Option.some.injEq] at hc
    subst hc
    simpa using List.rdropWhile_last_not isSpace _ hne

theorem trimSpace_trimSpace (s : List Char) : trimSpace (trimSpace s) = trimSpace s :=
  trimSpace_of_trimmed (trimmed_trimSpace s)

/-- A nonempty suffix ends where the whole text does. -/
theorem getLast?_of_suffix {a s : List Char} (hs : a <:+ s) (ha : a ≠ []) :
    a.getLast? = s.getLast? := by
  obtain ⟨t, rfl⟩ := hs
  rw [List.getLast?_append, List.getLast?_eq_some_getLast ha]
  rfl

/-! ## 3. What each protocol returns -/

/-- The protocols `parseSimpleProtoAddr` handles, with their default addresses. -/
def SimpleProto (proto defaultAddr : List Char) : Prop :=
  (proto = "unix".toList ∧ defaultAddr = defaultUnixSocket) ∨
    (proto = "npipe".toList ∧ defaultAddr = defaultNamedPipe)

/-- `parseSimpleProtoAddr` returns the protocol and either the default address or a nonempty
suffix of the given one with no `://` in it. -/
theorem parseSimpleProtoAddr_ok {proto addr d r : List Char}
    (h : parseSimpleProtoAddr proto addr d = .ok r) :
    ∃ a, r = proto ++ "://".toList ++ a ∧
      (a = d ∨ (a ≠ [] ∧ contains a "://".toList = false ∧ a <:+ addr)) := by
  unfold parseSimpleProtoAddr at h
  dsimp only at h
  split at h
  · cases h
  · rename_i hno
    rw [Except.ok.injEq] at h
    subst h
    by_cases ha : trimPrefix addr (proto ++ "://".toList) = []
    · exact ⟨d, by rw [if_pos ha], .inl rfl⟩
    · refine ⟨_, by rw [if_neg ha], .inr ⟨ha, ?_, trimPrefix_suffix _ _⟩⟩
      simpa using hno

/-- An address with no `://` in it is kept. -/
theorem parseSimpleProtoAddr_of_plain {proto a d : List Char} (hne : a ≠ [])
    (hno : contains a "://".toList = false) :
    parseSimpleProtoAddr proto a d = .ok (proto ++ "://".toList ++ a) := by
  have hcut : cut a "://".toList = none := by simpa [contains] using hno
  unfold parseSimpleProtoAddr
  dsimp only
  rw [trimPrefix_of_cut_eq_none hcut proto, hno, if_neg Bool.false_ne_true, if_neg hne]

theorem parseDockerDaemonHost_simple {addr proto rest d : List Char} (hs : SimpleProto proto d)
    (hc : cut addr "://".toList = some (proto, rest)) :
    parseDockerDaemonHost addr = parseSimpleProtoAddr proto rest d := by
  unfold parseDockerDaemonHost
  rw [hc]
  rcases hs with ⟨rfl, rfl⟩ | ⟨rfl, rfl⟩ <;> rfl

/-- Given a `tcp` default, every address `ParseTCPAddr` returns is a `tcp` one. -/
theorem parseTCPAddr_tcp {tryAddr d r : List Char} (hd : "tcp://".toList <+: d)
    (h : parseTCPAddr tryAddr d = .ok r) : "tcp://".toList <+: r := by
  unfold parseTCPAddr at h
  split at h
  · cases h
    exact hd
  · dsimp only at h
    repeat' split at h
    -- the failures are impossible, and every success is `"tcp://"` followed by the rest
    all_goals cases h
    all_goals
      rw [List.append_assoc]
      exact List.prefix_append _ _

theorem defaultTCPHost_tcp : "tcp://".toList <+: defaultTCPHost :=
  List.prefix_append _ _

/-- What `parseDockerDaemonHost` returns: a `tcp` address, an `fd` address as given, or a `unix` or
`npipe` address made of the protocol and the default or a plain suffix of the given address. -/
theorem parseDockerDaemonHost_ok {addr r : List Char} (h : parseDockerDaemonHost addr = .ok r) :
    "tcp://".toList <+: r ∨
      (r = addr ∧ ∃ rest, cut addr "://".toList = some ("fd".toList, rest)) ∨
      ∃ proto d a, SimpleProto proto d ∧ r = proto ++ "://".toList ++ a ∧
        (a = d ∨ (a ≠ [] ∧ contains a "://".toList = false ∧ a <:+ addr)) := by
  unfold parseDockerDaemonHost at h
  cases hc : cut addr "://".toList with
  | none =>
    -- no protocol: `tcp`, or the empty address, which no protocol matches
    rw [hc] at h
    by_cases ha : addr = []
    · subst ha
      cases h
    · rw [if_pos ha] at h
      exact .inl (parseTCPAddr_tcp defaultTCPHost_tcp h)
  | some parts =>
    obtain ⟨proto, rest⟩ := parts
    have hsuf : rest <:+ addr := by
      rw [eq_append_of_cut_eq_some hc]
      exact List.suffix_append _ _
    -- a plain suffix of `rest` is one of `addr`
    have hsimple : ∀ d, parseSimpleProtoAddr proto rest d = .ok r → SimpleProto proto d →
        ∃ proto d a, SimpleProto proto d ∧ r = proto ++ "://".toList ++ a ∧
          (a = d ∨ (a ≠ [] ∧ contains a "://".toList = false ∧ a <:+ addr)) := by
      intro d hd hs
      obtain ⟨a, hr, ha⟩ := parseSimpleProtoAddr_ok hd
      exact ⟨proto, d, a, hs, hr, ha.imp_right fun ⟨hne, hno, has⟩ => ⟨hne, hno, has.trans hsuf⟩⟩
    rw [hc] at h
    dsimp only at h
    split_ifs at h with htcp hunix hnpipe hfd
    · exact .inl (parseTCPAddr_tcp defaultTCPHost_tcp h)
    · subst hunix
      exact .inr (.inr (hsimple _ h (.inl ⟨rfl, rfl⟩)))
    · subst hnpipe
      exact .inr (.inr (hsimple _ h (.inr ⟨rfl, rfl⟩)))
    · cases h
      exact .inr (.inl ⟨rfl, rest, by rw [← hfd]⟩)

/-! ## 4. `unix`, `npipe` and `fd` addresses are normal -/

/-- Each default address passes the checks a given address needs to be kept. -/
theorem SimpleProto.default_plain {proto d : List Char} (hs : SimpleProto proto d) :
    d ≠ [] ∧ contains d "://".toList = false ∧ ∀ c ∈ d.getLast?, isSpace c = false := by
  have hk : isSpace 'k' = false ∧ isSpace 'e' = false := by decide +kernel
  rcases hs with ⟨-, rfl⟩ | ⟨-, rfl⟩
  · refine ⟨by decide +kernel, by decide +kernel, fun c hc => ?_⟩
    rw [Option.mem_def, show defaultUnixSocket.getLast? = some 'k' by rfl,
      Option.some.injEq] at hc
    rw [← hc]
    exact hk.1
  · refine ⟨by decide +kernel, by decide +kernel, fun c hc => ?_⟩
    rw [Option.mem_def, show defaultNamedPipe.getLast? = some 'e' by rfl,
      Option.some.injEq] at hc
    rw [← hc]
    exact hk.2

/-- A `unix` or `npipe` address whose address part is plain and does not end in a space is its own
normal form. -/
theorem parseHost_simple (defaultToTLS : Bool) {proto d a : List Char} (hs : SimpleProto proto d)
    (ha : a ≠ []) (hno : contains a "://".toList = false)
    (hlast : ∀ c ∈ a.getLast?, isSpace c = false) :
    parseHost defaultToTLS (proto ++ "://".toList ++ a) = (proto ++ "://".toList ++ a, none) := by
  have hproto : proto ≠ [] ∧ (∀ c ∈ proto.head?, isSpace c = false) ∧ ':' ∉ proto := by
    rcases hs with ⟨rfl, -⟩ | ⟨rfl, -⟩
    · exact ⟨by simp, fun c hc => by rw [← Option.some.inj hc]; decide +kernel, by decide⟩
    · exact ⟨by simp, fun c hc => by rw [← Option.some.inj hc]; decide +kernel, by decide⟩
  have htrim : Trimmed (proto ++ "://".toList ++ a) := by
    constructor
    · rw [List.append_assoc, List.head?_append_of_ne_nil _ hproto.1]
      exact hproto.2.1
    · rw [List.getLast?_append_of_ne_nil _ ha]
      exact hlast
  have hcut : cut (proto ++ "://".toList ++ a) "://".toList = some (proto, a) :=
    cut_append_of_not_mem rfl hproto.2.2
  unfold parseHost
  dsimp only
  rw [trimSpace_of_trimmed htrim, if_neg (by simp), parseDockerDaemonHost_simple hs hcut,
    parseSimpleProtoAddr_of_plain ha hno]

/-- A `unix`, `npipe` or `fd` address that `ParseHost` returns is its own normal form: parsing it
again returns it, with no error. -/
theorem parseHost_idempotent_of_not_tcp (defaultToTLS : Bool) {val h : List Char}
    (hok : parseHost defaultToTLS val = (h, none)) (htcp : ¬"tcp://".toList <+: h) :
    parseHost defaultToTLS h = (h, none) := by
  unfold parseHost at hok
  dsimp only at hok
  split at hok
  · -- an empty address: the default host, which is the `tcp` one under TLS
    rw [Prod.mk.injEq] at hok
    cases defaultToTLS with
    | true => exact absurd (hok.1 ▸ List.prefix_append _ _) htcp
    | false =>
      rw [← hok.1]
      obtain ⟨hne, hno, hlast⟩ := SimpleProto.default_plain (.inl ⟨rfl, rfl⟩)
      exact parseHost_simple false (.inl ⟨rfl, rfl⟩) hne hno hlast
  · rename_i hne
    split at hok
    · cases hok
    · rename_i r hparse
      rw [Prod.mk.injEq] at hok
      obtain ⟨rfl, -⟩ := hok
      rcases parseDockerDaemonHost_ok hparse with htcp' | ⟨rfl, -⟩ | ⟨proto, d, a, hs, rfl, ha⟩
      · exact absurd htcp' htcp
      · -- `fd`: the trimmed address is trimmed already, and parses as before
        unfold parseHost
        dsimp only
        rw [trimSpace_trimSpace, if_neg hne, hparse]
      · rcases ha with rfl | ⟨ha, hno, hsuf⟩
        · obtain ⟨hne, hno, hlast⟩ := hs.default_plain
          exact parseHost_simple _ hs hne hno hlast
        · -- a nonempty suffix of the trimmed address ends where it does
          refine parseHost_simple _ hs ha hno ?_
          rw [getLast?_of_suffix hsuf ha]
          exact (trimmed_trimSpace val).2

/-! ## 5. A `tcp` address with an escaped `?` in its path -/

theorem parseHost_not_idempotent (defaultToTLS : Bool) :
    parseHost defaultToTLS "tcp://127.0.0.1:2375/a%3Fb".toList =
        ("tcp://127.0.0.1:2375/a?b".toList, none) ∧
      parseHost defaultToTLS "tcp://127.0.0.1:2375/a?b".toList =
        ("tcp://127.0.0.1:2375/a".toList, none) := by
  cases defaultToTLS <;> decide +kernel

end Docker.Opts
