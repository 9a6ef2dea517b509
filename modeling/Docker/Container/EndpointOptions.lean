import Mathlib
import Docker.Dockerfile.Parser

/-!
# EndpointOptions — the routed branch of `Container.BuildCreateEndpointOptions`

For the network named `routed` this fork reads the container's IPv4 addresses from the label
`io.docker.network.endpoint.ip4addresses`, or, when the label is empty, from the endpoint's IPAM
config, parses each comma-separated item with the routed driver's `ParseIpOrNet`, requires a `/32`
mask, parses the `ingressAllowed` label with `NetFilterConfigParse`, and hands both to libnetwork
as one generic endpoint option.  The two parsers of the driver are left uninterpreted
(`RoutedDriver`), as is every option the function builds after this branch (`rest`).

When the label is set or the IPAM config is there, the branch does what it should: it fails
exactly on an empty address list, a rejected item or a rejected ingress label, and otherwise
carries exactly the parsed addresses, in order (`routedOption_eq_ok_iff`).  With neither, it reads
through the nil IPAM config and panics (`connectToNetwork_routed_panics`): `connectToNetwork` puts
a bare `&EndpointSettings{}` in for a nil config, and only the CLI's `--ip` flags ever fill it.
-/

namespace Docker.Container

open Docker.Dockerfile (trimSpace)

/-- How a Go call ends other than with a value: a returned error, or a panic. -/
inductive Failure
  | error (msg : List Char)
  | panic (msg : List Char)
  deriving DecidableEq, Repr

/-- The runtime's message for a nil pointer dereference. -/
def errNilDereference : List Char := "invalid memory address or nil pointer dereference".toList

-- `netlabel.IPv4Addresses` and `netlabel.IngressAllowed`
def iPv4Addresses : List Char := "io.docker.network.endpoint.ip4addresses".toList

def ingressAllowed : List Char := "io.docker.network.endpoint.ingressAllowed".toList

/-- `container.Config.Labels`: a label that is not set reads as `""`. -/
abbrev Labels := List Char → List Char

structure EndpointIPAMConfig where
  iPv4Address : List Char
  deriving DecidableEq, Repr

/-- `*networktypes.EndpointSettings`, with the one field the routed branch reads. -/
structure EndpointSettings where
  iPAMConfig : Option EndpointIPAMConfig
  deriving DecidableEq, Repr

/-- The routed driver's parsers: `ParseIpOrNet` (nil for an unparsable string), the first result
of the parsed net's `Mask.Size()`, and `NetFilterConfigParse` with its error's text. -/
structure RoutedDriver (ι γ : Type) where
  parseIpOrNet : List Char → Option ι
  ones : ι → Nat
  netFilterConfigParse : List Char → Except (List Char) γ

/-- The options `BuildCreateEndpointOptions` collects: the routed branch's generic option, and the
options of the rest of the function, kept abstract. -/
inductive EndpointOption (ι γ ω : Type)
  | generic (ip4Addr : List ι) (ingressAllowed : γ)
  | other (opt : ω)

variable {ι γ ω : Type} (r : RoutedDriver ι γ)

/-! ## 1. The routed branch -/

/-- The loop over `strings.Split(ipAddresses, ",")`: each item trimmed, parsed and checked for a
`/32` mask, in order, stopping at the first bad one. -/
def parseAddresses : List (List Char) → Except Failure (List ι)
  | [] => .ok []
  | item :: items =>
    let ipAddress := trimSpace item
    match r.parseIpOrNet ipAddress with
    | none => .error (.error (ipAddress ++ " is not a valid IPv4 Address".toList))
    | some parsedNet =>
      if r.ones parsedNet ≠ 32 then .error (.error (ipAddress ++ " CIDR should have a /32 mask".toList))
      else (parseAddresses items).map (parsedNet :: ·)

/-- The address string: the label, or else `epConfig.IPAMConfig.IPv4Address`, which dereferences
the IPAM config whether or not it is there. -/
def ipAddresses (labels : Labels) (epConfig : EndpointSettings) : Except Failure (List Char) :=
  if labels iPv4Addresses ≠ [] then .ok (labels iPv4Addresses)
  else
    match epConfig.iPAMConfig with
    | some ipam => .ok ipam.iPv4Address
    | none => .error (.panic errNilDereference)

def routedOption (labels : Labels) (epConfig : EndpointSettings) :
    Except Failure (EndpointOption ι γ ω) :=
  match ipAddresses labels epConfig with
  | .error e => .error e
  | .ok ipAddresses =>
    if ipAddresses = [] then
      .error (.error ("Configure Ip Addresses in routed mode using the label ".toList ++ iPv4Addresses))
    else
      match parseAddresses r (ipAddresses.splitOn ',') with
      | .error e => .error e
      | .ok ip4Addr =>
        if ip4Addr.isEmpty then
          .error (.error ("No valid IPv4 addresses found in label ".toList ++ iPv4Addresses))
        else
          match r.netFilterConfigParse (labels ingressAllowed) with
          | .error err =>
            .error (.error ("No valid value for label ".toList ++ ingressAllowed ++ ", ".toList ++ err))
          | .ok netFilterConfig => .ok (.generic ip4Addr netFilterConfig)

/-- `BuildCreateEndpointOptions` for network `name`: the routed branch first, then the options of
the rest of the function, which reads nothing the branch computes. -/
def buildCreateEndpointOptions (labels : Labels) (name : List Char) (epConfig : EndpointSettings)
    (rest : Except Failure (List (EndpointOption ι γ ω))) :
    Except Failure (List (EndpointOption ι γ ω)) :=
  let routed : Except Failure (List (EndpointOption ι γ ω)) :=
    if name = "routed".toList then (routedOption r labels epConfig).map ([·]) else .ok []
  match routed with
  | .error e => .error e
  | .ok routed => rest.map (routed ++ ·)

/-- `connectToNetwork` builds the options with `&EndpointSettings{}` in place of a nil config. -/
def connectToNetwork (labels : Labels) (name : List Char) (endpointConfig : Option EndpointSettings)
    (rest : Except Failure (List (EndpointOption ι γ ω))) :
    Except Failure (List (EndpointOption ι γ ω)) :=
  buildCreateEndpointOptions r labels name (endpointConfig.getD ⟨none⟩) rest

/-! ## 2. The address loop -/

/-- An item the loop keeps: it parses, after trimming, to a net with a `/32` mask. -/
def RoutedDriver.Accepts (item : List Char) (a : ι) : Prop :=
  r.parseIpOrNet (trimSpace item) = some a ∧ r.ones a = 32

theorem parseAddresses_eq_ok_iff (items : List (List Char)) (addrs : List ι) :
    parseAddresses r items = .ok addrs ↔ List.Forall₂ r.Accepts items addrs := by
  induction items generalizing addrs with
  | nil =>
    cases addrs <;> simp [parseAddresses]
  | cons item items ih =>
    rw [parseAddresses, List.forall₂_cons_left_iff]
    split
    next hnone => simp [RoutedDriver.Accepts, hnone]
    next a hsome =>
      split
      next hones => simp [RoutedDriver.Accepts, hsome, hones]
      next hones =>
        -- the item is kept as `a`: the rest of the list decides
        rw [not_not] at hones
        have hacc : ∀ b, r.Accepts item b ↔ b = a := fun b => by
          rw [RoutedDriver.Accepts, hsome, Option.some.injEq]
          constructor
          · rintro ⟨rfl, -⟩
            rfl
          · rintro rfl
            exact ⟨rfl, hones⟩
        simp only [hacc, ← ih]
        cases parseAddresses r items with
        | error e => simp [Except.map]
        | ok bs => simp [Except.map, eq_comm]

/-- The loop returns errors, never a panic. -/
theorem parseAddresses_ne_panic (items : List (List Char)) (msg : List Char) :
    parseAddresses r items ≠ .error (.panic msg) := by
  induction items with
  | nil => simp [parseAddresses]
  | cons item items ih =>
    rw [parseAddresses]
    split
    · simp
    · split
      · simp
      · cases h : parseAddresses r items with
        | error e => rw [h] at ih; simpa [Except.map] using ih
        | ok bs => simp [Except.map]

/-- `strings.Split` never returns an empty list, so the loop's `len(ip4Addr) == 0` check is dead. -/
theorem parseAddresses_splitOn_ne_nil {s : List Char} {addrs : List ι}
    (h : parseAddresses r (s.splitOn ',') = .ok addrs) : addrs ≠ [] := by
  have hlen := ((parseAddresses_eq_ok_iff r _ addrs).mp h).length_eq
  intro hnil
  rw [hnil, List.length_nil] at hlen
  exact List.splitOn_ne_nil ',' s (List.eq_nil_of_length_eq_zero hlen)

/-! ## 3. The branch when there are addresses to read -/

/-- Where the addresses come from when the IPAM config is not needed or is there. -/
def addressSource (labels : Labels) (epConfig : EndpointSettings) : Option (List Char) :=
  if labels iPv4Addresses ≠ [] then some (labels iPv4Addresses)
  else epConfig.iPAMConfig.map EndpointIPAMConfig.iPv4Address

theorem ipAddresses_of_addressSource {labels : Labels} {epConfig : EndpointSettings}
    {s : List Char} (h : addressSource labels epConfig = some s) :
    ipAddresses labels epConfig = .ok s := by
  unfold addressSource at h
  unfold ipAddresses
  split
  next hl => rw [if_pos hl] at h; rw [Option.some.inj h]
  next hl =>
    rw [if_neg hl] at h
    obtain ⟨ipam, hipam, rfl⟩ := Option.map_eq_some_iff.mp h
    rw [hipam]

theorem ipAddresses_of_addressSource_none {labels : Labels} {epConfig : EndpointSettings}
    (h : addressSource labels epConfig = none) :
    ipAddresses labels epConfig = .error (.panic errNilDereference) := by
  unfold addressSource at h
  unfold ipAddresses
  split
  next hl => rw [if_pos hl] at h; cases h
  next hl =>
    rw [if_neg hl, Option.map_eq_none_iff] at h
    rw [h]

/-- With an address string to read, the branch succeeds exactly when the string is not empty,
every item is accepted and the ingress label parses; its option then carries exactly the parsed
addresses, in the order of the string. -/
theorem routedOption_eq_ok_iff {labels : Labels} {epConfig : EndpointSettings} {s : List Char}
    (hs : addressSource labels epConfig = some s) (opt : EndpointOption ι γ ω) :
    routedOption r labels epConfig = .ok opt ↔
      s ≠ [] ∧ ∃ addrs cfg, List.Forall₂ r.Accepts (s.splitOn ',') addrs ∧
        r.netFilterConfigParse (labels ingressAllowed) = .ok cfg ∧ opt = .generic addrs cfg := by
  unfold routedOption
  rw [ipAddresses_of_addressSource hs]
  dsimp only
  by_cases hempty : s = []
  · simp [hempty]
  rw [if_neg hempty]
  simp only [ne_eq, hempty, not_false_eq_true, true_and]
  cases hparse : parseAddresses r (s.splitOn ',') with
  | error e =>
    -- no list of addresses is accepted item by item
    have hno : ∀ addrs, ¬ List.Forall₂ r.Accepts (s.splitOn ',') addrs := fun addrs h => by
      rw [← parseAddresses_eq_ok_iff, hparse] at h
      cases h
    simp [hno]
  | ok addrs =>
    have hacc := (parseAddresses_eq_ok_iff r _ addrs).mp hparse
    have hne : ¬ addrs.isEmpty = true := by
      simpa using parseAddresses_splitOn_ne_nil r hparse
    dsimp only
    rw [if_neg hne]
    cases hcfg : r.netFilterConfigParse (labels ingressAllowed) with
    | error err => simp
    | ok cfg =>
      dsimp only
      constructor
      · intro h
        cases h
        exact ⟨addrs, cfg, hacc, rfl, rfl⟩
      · rintro ⟨addrs', cfg', hacc', hcfg', rfl⟩
        rw [← parseAddresses_eq_ok_iff, hparse] at hacc'
        cases hacc'
        cases hcfg'
        rfl

/-- With an address string to read, the branch never panics. -/
theorem routedOption_ne_panic {labels : Labels} {epConfig : EndpointSettings} {s : List Char}
    (hs : addressSource labels epConfig = some s) (msg : List Char) :
    (routedOption r labels epConfig : Except Failure (EndpointOption ι γ ω)) ≠
      .error (.panic msg) := by
  unfold routedOption
  rw [ipAddresses_of_addressSource hs]
  dsimp only
  split
  · simp
  · split
    next e he =>
      intro h
      cases h
      exact parseAddresses_ne_panic r _ msg he
    next =>
      split
      · simp
      · split <;> simp

/-! ## 4. A nil IPAM config -/

/-- With the label empty and no IPAM config, the branch panics on the nil config. -/
theorem routedOption_nil_ipam {labels : Labels} (hlabel : labels iPv4Addresses = []) :
    (routedOption r labels ⟨none⟩ : Except Failure (EndpointOption ι γ ω)) =
      .error (.panic errNilDereference) := by
  have hsrc : addressSource labels ⟨none⟩ = none := by
    simp [addressSource, hlabel]
  unfold routedOption
  rw [ipAddresses_of_addressSource_none hsrc]

theorem connectToNetwork_routed_panics (r : RoutedDriver ι γ) (labels : Labels)
    (rest : Except Failure (List (EndpointOption ι γ ω))) (hlabel : labels iPv4Addresses = []) :
    connectToNetwork r labels "routed".toList none rest = .error (.panic errNilDereference) ∧
      buildCreateEndpointOptions r labels "routed".toList ⟨none⟩ rest =
        .error (.panic errNilDereference) := by
  have hbuild : buildCreateEndpointOptions r labels "routed".toList ⟨none⟩ rest =
      .error (.panic errNilDereference) := by
    unfold buildCreateEndpointOptions
    dsimp only
    rw [if_pos rfl, routedOption_nil_ipam r hlabel]
    rfl
  exact ⟨hbuild, hbuild⟩

/-- No labels, `docker network connect routed c`, with a driver that accepts every address. -/
theorem connectToNetwork_routed_panics_no_labels :
    (fun _ => [] : Labels) iPv4Addresses = [] ∧
      connectToNetwork (⟨fun _ => some (), fun _ => 32, fun _ => .ok ()⟩ : RoutedDriver Unit Unit)
          (fun _ => []) "routed".toList none
          (.ok [] : Except Failure (List (EndpointOption Unit Unit Unit))) =
        .error (.panic errNilDereference) :=
  ⟨rfl, (connectToNetwork_routed_panics _ _ _ rfl).1⟩

end Docker.Container
