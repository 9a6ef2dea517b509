import Mathlib
import Docker.Cluster.Types
import Docker.Reasoning.GoNet

/-!
# Convert — service specs between engine-api and swarmkit

`ServiceSpecToGRPC` turns the spec a client sends into the one the cluster stores.  It fills in
defaults as it goes: a random name, the `BIND` mount type, the `ANY` restart condition, the `PAUSE`
failure action, the `VIP` resolution mode, `TCP`, and one replica.  `ServiceFromGRPC` turns a stored
service back.  `docker service update` reads a service that way, edits its spec and sends it again.

A stored spec of the shape `ServiceSpecToGRPC` makes is `Stable`.  Converting a stable spec back
and sending it again gives the same spec (`serviceSpecToGRPC_serviceFromGRPC`), and every spec
`ServiceSpecToGRPC` makes is stable (`serviceSpecToGRPC_stable`).

`strings.ToLower` is taken on ASCII letters only: it is applied to the names of the enumerations
alone, which are ASCII.  `strings.ToUpper` is applied to what the client sent, and only to look the
result up among those names; it is exact on every character whose upper case is an ASCII letter.
The random name is a parameter: `namesgenerator.GetRandomName` never returns an empty one.
-/

namespace Docker.Cluster

open Reasoning.GoNet (quote)

/-- `unicode.ToUpper` on the characters whose upper case is an ASCII letter: the ASCII letters,
`ı` (U+0131) and `ſ` (U+017F).  Any other character is kept: its upper case is not ASCII, and the
lookups among the ASCII names of the enumerations, where `strings.ToUpper` is used, fail on both. -/
def upperRune (c : Char) : Char :=
  if c = '\u0131' then 'I' else if c = '\u017F' then 'S' else c.toUpper

/-- `strings.ToUpper`, `Map(unicode.ToUpper, s)`. -/
def toUpper (s : String) : String := s.map upperRune

example : toUpper "bınd" = "BIND" ∧ toUpper "tcp" = "TCP" := by decide +kernel

/-- `strings.ToLower`, on ASCII letters. -/
def toLower (s : String) : String := s.map Char.toLower

/-! ## 1. `container.go` -/

/-- The body of the `Mounts` loop of `containerSpecFromGRPC`. -/
def mountFromGRPC (m : Swarmapi.Mount) : Types.Mount where
  target := m.target
  source := m.source
  type := toLower m.type.name
  readOnly := m.readOnly
  bindOptions := m.bindOptions.map fun b => ⟨toLower b.propagation.name⟩
  volumeOptions := m.volumeOptions.map fun v =>
    ⟨v.noCopy, v.labels, v.driverConfig.map fun d => ⟨d.name, d.options⟩⟩

def containerSpecFromGRPC (c : Swarmapi.ContainerSpec) : Types.ContainerSpec where
  image := c.image
  labels := c.labels
  command := c.command
  args := c.args
  env := c.env
  dir := c.dir
  user := c.user
  mounts := c.mounts.map mountFromGRPC
  stopGracePeriod := c.stopGracePeriod.map fun p => (duration p).1

/-- The body of the `Mounts` loop of `containerToGRPC`. -/
def mountToGRPC (m : Types.Mount) : Except String Swarmapi.Mount := do
  let type ← match Swarmapi.MountType.value (toUpper m.type) with
    | some t => pure t
    | none =>
      if m.type ≠ "" then .error ("invalid MountType: " ++ quote m.type.toList)
      else pure .bind
  -- an empty propagation leaves the bind options out
  let bindOptions ← match m.bindOptions with
    | none => pure none
    | some b =>
      match Swarmapi.MountPropagation.value (toUpper b.propagation) with
      | some p => pure (some ⟨p⟩)
      | none =>
        if b.propagation ≠ "" then
          .error ("invalid MountPropagation: " ++ quote b.propagation.toList)
        else pure none
  pure {
    target := m.target
    source := m.source
    readOnly := m.readOnly
    type
    bindOptions
    volumeOptions := m.volumeOptions.map fun v =>
      ⟨v.noCopy, v.labels, v.driverConfig.map fun d => ⟨d.name, d.options⟩⟩ }

def containerToGRPC (c : Types.ContainerSpec) : Except String Swarmapi.ContainerSpec := do
  let mounts ← c.mounts.mapM mountToGRPC
  pure {
    image := c.image
    labels := c.labels
    command := c.command
    args := c.args
    env := c.env
    dir := c.dir
    user := c.user
    stopGracePeriod := c.stopGracePeriod.map durationProto
    mounts }

/-! ## 2. `service.go` and `network.go` -/

def resourcesFromGRPC (res : Option Swarmapi.ResourceRequirements) :
    Option Types.ResourceRequirements :=
  res.map fun res =>
    ⟨res.limits.map fun l => ⟨l.nanoCPUs, l.memoryBytes⟩,
      res.reservations.map fun r => ⟨r.nanoCPUs, r.memoryBytes⟩⟩

def resourcesToGRPC (res : Option Types.ResourceRequirements) :
    Option Swarmapi.ResourceRequirements :=
  res.map fun res =>
    ⟨res.limits.map fun l => ⟨l.nanoCPUs, l.memoryBytes⟩,
      res.reservations.map fun r => ⟨r.nanoCPUs, r.memoryBytes⟩⟩

def restartPolicyFromGRPC (p : Option Swarmapi.RestartPolicy) : Option Types.RestartPolicy :=
  p.map fun p => {
    condition := match p.condition with
      | .none => "none"
      | .onFailure => "on-failure"
      | .any => "any"
    delay := p.delay.map fun d => (duration d).1
    window := p.window.map fun w => (duration w).1
    maxAttempts := some p.maxAttempts }

def restartPolicyToGRPC (p : Option Types.RestartPolicy) :
    Except String (Option Swarmapi.RestartPolicy) :=
  match p with
  | none => pure none
  | some p => do
    let condition ←
      if p.condition = "none" then pure .none
      else if p.condition = "on-failure" then pure .onFailure
      else if p.condition = "any" then pure .any
      else if p.condition ≠ "" then .error ("invalid RestartCondition: " ++ quote p.condition.toList)
      else pure .any
    pure (some {
      condition
      delay := p.delay.map durationProto
      window := p.window.map durationProto
      maxAttempts := p.maxAttempts.getD 0 })

def placementFromGRPC (p : Option Swarmapi.Placement) : Option Types.Placement :=
  p.map fun p => ⟨p.constraints⟩

def driverFromGRPC (p : Option Swarmapi.Driver) : Option Types.Driver :=
  p.map fun p => ⟨p.name, p.options⟩

def driverToGRPC (p : Option Types.Driver) : Option Swarmapi.Driver :=
  p.map fun p => ⟨p.name, p.options⟩

/-- A `PortConfig` read back, in `endpointSpecFromGRPC` and `endpointFromGRPC`. -/
def portFromGRPC (p : Swarmapi.PortConfig) : Types.PortConfig :=
  ⟨p.name, toLower p.protocol.name, p.targetPort, p.publishedPort⟩

/-- A `PortConfig` sent, in `ServiceSpecToGRPC`: an unknown protocol is the zero value, `TCP`. -/
def portToGRPC (p : Types.PortConfig) : Swarmapi.PortConfig :=
  ⟨p.name, (Swarmapi.Protocol.value (toUpper p.protocol)).getD .tcp, p.targetPort,
    p.publishedPort⟩

def endpointSpecFromGRPC (es : Option Swarmapi.EndpointSpec) : Option Types.EndpointSpec :=
  es.map fun es => ⟨toLower es.mode.name, es.ports.map portFromGRPC⟩

def endpointFromGRPC (e : Option Swarmapi.Endpoint) : Types.Endpoint :=
  match e with
  | none => ⟨⟨"", []⟩, [], []⟩
  | some e =>
    ⟨(endpointSpecFromGRPC e.spec).getD ⟨"", []⟩, e.ports.map portFromGRPC,
      e.virtualIPs.map fun v => ⟨v.networkID, v.addr⟩⟩

/-- The `UpdateConfig` part of `ServiceFromGRPC`. -/
def updateConfigFromGRPC (u : Option Swarmapi.UpdateConfig) : Option Types.UpdateConfig :=
  u.map fun u => {
    parallelism := u.parallelism
    delay := (duration u.delay).1
    failureAction := match u.failureAction with
      | .pause => "pause"
      | .continue => "continue" }

/-- The `Mode` part of `ServiceFromGRPC`. -/
def modeFromGRPC (m : Option Swarmapi.ServiceMode) : Types.ServiceMode :=
  match m with
  | some .global => ⟨none, some ()⟩
  | some (.replicated replicas) => ⟨some ⟨some replicas⟩, none⟩
  | none => ⟨none, none⟩

/-- The `UpdateStatus` part of `ServiceFromGRPC`. -/
def updateStatusFromGRPC (u : Option Swarmapi.UpdateStatus) : Types.UpdateStatus :=
  match u with
  | none => ⟨"", ""⟩
  | some u =>
    ⟨match u.state with
      | .updating => "updating"
      | .paused => "paused"
      | .completed => "completed"
      | .unknown => "", u.message⟩

/-- `ServiceFromGRPC(s)`.  The runtime is asserted to be a container: `none` for a nil one, where
the assertion panics. -/
def serviceFromGRPC (s : Swarmapi.Service) : Option Types.Service :=
  match s.spec.task.runtime with
  | none => none
  | some containerConfig =>
    some {
      id := s.id
      version := s.version
      spec := {
        annotations := ⟨s.spec.annotations.name, s.spec.annotations.labels⟩
        taskTemplate := {
          containerSpec := containerSpecFromGRPC containerConfig
          resources := resourcesFromGRPC s.spec.task.resources
          restartPolicy := restartPolicyFromGRPC s.spec.task.restart
          placement := placementFromGRPC s.spec.task.placement
          logDriver := driverFromGRPC s.spec.task.logDriver }
        networks := s.spec.networks.map fun n => ⟨n.target, n.aliases⟩
        endpointSpec := endpointSpecFromGRPC s.spec.endpoint
        updateConfig := updateConfigFromGRPC s.spec.update
        mode := modeFromGRPC s.spec.mode }
      endpoint := endpointFromGRPC s.endpoint
      updateStatus := updateStatusFromGRPC s.updateStatus }

/-- The `UpdateConfig` part of `ServiceSpecToGRPC`. -/
def updateConfigToGRPC (u : Option Types.UpdateConfig) :
    Except String (Option Swarmapi.UpdateConfig) :=
  match u with
  | none => pure none
  | some u => do
    let failureAction ←
      if u.failureAction = "pause" ∨ u.failureAction = "" then pure .pause
      else if u.failureAction = "continue" then pure .continue
      else .error ("unrecongized update failure action " ++ u.failureAction)
    pure (some ⟨u.parallelism, durationProto u.delay, failureAction⟩)

/-- The `EndpointSpec` part of `ServiceSpecToGRPC`: an empty mode is the zero value, `VIP`. -/
def endpointSpecToGRPC (e : Option Types.EndpointSpec) :
    Except String (Option Swarmapi.EndpointSpec) :=
  match e with
  | none => pure none
  | some e =>
    if e.mode ≠ "" ∧ e.mode ≠ "vip" ∧ e.mode ≠ "dnsrr" then
      .error ("invalid resolution mode: " ++ quote e.mode.toList)
    else
      pure (some ⟨(Swarmapi.ResolutionMode.value (toUpper e.mode)).getD .vip,
        e.ports.map portToGRPC⟩)

/-- The `Mode` part of `ServiceSpecToGRPC`: one replica when none is given. -/
def modeToGRPC (m : Types.ServiceMode) : Swarmapi.ServiceMode :=
  if m.global.isSome then .global
  else
    match m.replicated with
    | some ⟨some replicas⟩ => .replicated replicas
    | _ => .replicated 1

/-- `ServiceSpecToGRPC(s)`, with `randomName` the name `namesgenerator` picks. -/
def serviceSpecToGRPC (randomName : String) (s : Types.ServiceSpec) :
    Except String Swarmapi.ServiceSpec := do
  let name := if s.annotations.name = "" then randomName else s.annotations.name
  let containerSpec ← containerToGRPC s.taskTemplate.containerSpec
  let restartPolicy ← restartPolicyToGRPC s.taskTemplate.restartPolicy
  let update ← updateConfigToGRPC s.updateConfig
  let endpoint ← endpointSpecToGRPC s.endpointSpec
  pure {
    annotations := ⟨name, s.annotations.labels⟩
    task := {
      runtime := some containerSpec
      resources := resourcesToGRPC s.taskTemplate.resources
      restart := restartPolicy
      placement := s.taskTemplate.placement.map fun p => ⟨p.constraints⟩
      logDriver := driverToGRPC s.taskTemplate.logDriver }
    networks := s.networks.map fun n => ⟨n.target, n.aliases⟩
    update
    endpoint
    mode := some (modeToGRPC s.mode) }

/-! ## 3. Names read back -/

@[simp] theorem mountType_value_name (t : Swarmapi.MountType) :
    Swarmapi.MountType.value (toUpper (toLower t.name)) = some t := by
  cases t <;> decide +kernel

@[simp] theorem mountPropagation_value_name (p : Swarmapi.MountPropagation) :
    Swarmapi.MountPropagation.value (toUpper (toLower p.name)) = some p := by
  cases p <;> decide +kernel

@[simp] theorem protocol_value_name (p : Swarmapi.Protocol) :
    Swarmapi.Protocol.value (toUpper (toLower p.name)) = some p := by
  cases p <;> decide +kernel

@[simp] theorem resolutionMode_value_name (m : Swarmapi.ResolutionMode) :
    Swarmapi.ResolutionMode.value (toUpper (toLower m.name)) = some m := by
  cases m <;> decide +kernel

/-- The modes read back pass the check of `ServiceSpecToGRPC`. -/
theorem resolutionMode_name_valid (m : Swarmapi.ResolutionMode) :
    ¬(toLower m.name ≠ "" ∧ toLower m.name ≠ "vip" ∧ toLower m.name ≠ "dnsrr") := by
  cases m <;> decide +kernel

theorem mountToGRPC_mountFromGRPC (m : Swarmapi.Mount) : mountToGRPC (mountFromGRPC m) = .ok m := by
  obtain ⟨type, source, target, readOnly, bindOptions, volumeOptions⟩ := m
  -- the options are rebuilt field by field, which is the identity up to eta
  cases bindOptions <;> cases volumeOptions <;>
    simp [mountToGRPC, mountFromGRPC, Option.map_map, Function.comp_def] <;> rfl

theorem mapM_mountToGRPC (ms : List Swarmapi.Mount) :
    (ms.map mountFromGRPC).mapM mountToGRPC = .ok ms := by
  induction ms with
  | nil => rfl
  | cons m ms ih =>
    rw [List.map_cons, List.mapM_cons, mountToGRPC_mountFromGRPC, ih]
    rfl

/-! ## 4. Sending a spec read back -/

/-- A proto duration that `DurationProto` makes again from the duration it reads as. -/
def ProtoDuration.Normal (p : ProtoDuration) : Prop :=
  durationProto (duration p).1 = p

theorem normal_durationProto (d : Duration) : (durationProto d).Normal := by
  unfold ProtoDuration.Normal
  rw [duration_durationProto]

theorem map_durationProto_duration {p : Option ProtoDuration} (h : ∀ d ∈ p, d.Normal) :
    (p.map fun d => (duration d).1).map durationProto = p := by
  cases p with
  | none => rfl
  | some d =>
    rw [Option.map_some, Option.map_some]
    exact congrArg some (h d rfl)

theorem containerToGRPC_containerSpecFromGRPC {c : Swarmapi.ContainerSpec}
    (h : ∀ p ∈ c.stopGracePeriod, p.Normal) :
    containerToGRPC (containerSpecFromGRPC c) = .ok c := by
  unfold containerToGRPC containerSpecFromGRPC
  rw [mapM_mountToGRPC]
  simp only [map_durationProto_duration h]
  rfl

theorem resourcesToGRPC_resourcesFromGRPC (res : Option Swarmapi.ResourceRequirements) :
    resourcesToGRPC (resourcesFromGRPC res) = res := by
  rcases res with _ | ⟨_ | _, _ | _⟩ <;> rfl

theorem restartPolicyToGRPC_restartPolicyFromGRPC {p : Option Swarmapi.RestartPolicy}
    (h : ∀ r ∈ p, (∀ d ∈ r.delay, d.Normal) ∧ ∀ w ∈ r.window, w.Normal) :
    restartPolicyToGRPC (restartPolicyFromGRPC p) = .ok p := by
  rcases p with _ | ⟨condition, delay, maxAttempts, window⟩
  · rfl
  · obtain ⟨hdelay, hwindow⟩ := h _ rfl
    have hd := map_durationProto_duration hdelay
    have hw := map_durationProto_duration hwindow
    unfold restartPolicyToGRPC restartPolicyFromGRPC
    cases condition <;> simp [hd, hw] <;> rfl

theorem portToGRPC_portFromGRPC (p : Swarmapi.PortConfig) : portToGRPC (portFromGRPC p) = p := by
  simp [portToGRPC, portFromGRPC]

theorem endpointSpecToGRPC_endpointSpecFromGRPC (e : Option Swarmapi.EndpointSpec) :
    endpointSpecToGRPC (endpointSpecFromGRPC e) = .ok e := by
  rcases e with _ | ⟨mode, ports⟩
  · rfl
  · unfold endpointSpecToGRPC endpointSpecFromGRPC
    dsimp only [Option.map_some]
    rw [if_neg (resolutionMode_name_valid mode), resolutionMode_value_name, List.map_map]
    simp [Function.comp_def, portToGRPC_portFromGRPC]
    rfl

theorem updateConfigToGRPC_updateConfigFromGRPC {u : Option Swarmapi.UpdateConfig}
    (h : ∀ c ∈ u, c.delay.Normal) : updateConfigToGRPC (updateConfigFromGRPC u) = .ok u := by
  rcases u with _ | ⟨parallelism, delay, failureAction⟩
  · rfl
  · have hd : durationProto (duration delay).1 = delay := h _ rfl
    unfold updateConfigToGRPC updateConfigFromGRPC
    cases failureAction <;> simp [hd] <;> rfl

theorem modeToGRPC_modeFromGRPC {m : Option Swarmapi.ServiceMode} (h : m.isSome) :
    some (modeToGRPC (modeFromGRPC m)) = m := by
  rcases m with _ | _ | _
  · cases h
  all_goals rfl

/-- A stored spec of the shape `ServiceSpecToGRPC` makes: a name, a container runtime, durations
that `DurationProto` made, and a mode. -/
structure Swarmapi.ServiceSpec.Stable (g : Swarmapi.ServiceSpec) : Prop where
  name : g.annotations.name ≠ ""
  runtime : ∃ c, g.task.runtime = some c ∧ ∀ p ∈ c.stopGracePeriod, p.Normal
  restart : ∀ r ∈ g.task.restart, (∀ p ∈ r.delay, p.Normal) ∧ ∀ p ∈ r.window, p.Normal
  update : ∀ u ∈ g.update, u.delay.Normal
  mode : g.mode.isSome

/-- A stable spec read back and sent again is the same spec, whatever name would be drawn. -/
theorem serviceSpecToGRPC_serviceFromGRPC (randomName : String) {s : Swarmapi.Service}
    (hs : s.spec.Stable) :
    ∃ svc, serviceFromGRPC s = some svc ∧ serviceSpecToGRPC randomName svc.spec = .ok s.spec := by
  obtain ⟨hname, ⟨c, hc, hgrace⟩, hrestart, hupdate, hmode⟩ := hs
  refine ⟨_, by unfold serviceFromGRPC; rw [hc], ?_⟩
  unfold serviceSpecToGRPC
  dsimp only
  rw [if_neg hname, containerToGRPC_containerSpecFromGRPC hgrace,
    restartPolicyToGRPC_restartPolicyFromGRPC hrestart,
    updateConfigToGRPC_updateConfigFromGRPC hupdate, endpointSpecToGRPC_endpointSpecFromGRPC,
    resourcesToGRPC_resourcesFromGRPC, modeToGRPC_modeFromGRPC hmode]
  simp only [bind, Except.bind, pure, Except.pure, placementFromGRPC, driverToGRPC, driverFromGRPC,
    Option.map_map, List.map_map, Function.comp_def, ← hc]
  -- the remaining maps rebuild each element from its own fields
  rw [Option.map_id', Option.map_id', List.map_id']

/-! ## 5. What `ServiceSpecToGRPC` makes -/

theorem bind_eq_ok {α β : Type} {x : Except String α} {f : α → Except String β} {b : β}
    (h : (x >>= f) = .ok b) : ∃ a, x = .ok a ∧ f a = .ok b := by
  cases x with
  | error e => cases h
  | ok a => exact ⟨a, rfl, h⟩

theorem containerToGRPC_stopGracePeriod {c : Types.ContainerSpec} {c' : Swarmapi.ContainerSpec}
    (h : containerToGRPC c = .ok c') : ∀ p ∈ c'.stopGracePeriod, p.Normal := by
  unfold containerToGRPC at h
  obtain ⟨mounts, -, h⟩ := bind_eq_ok h
  cases h
  intro p hp
  obtain ⟨d, -, rfl⟩ := Option.mem_map.mp hp
  exact normal_durationProto d

/-- A restart policy that is sent keeps its durations, as protos. -/
theorem restartPolicyToGRPC_some {p : Types.RestartPolicy} {r : Option Swarmapi.RestartPolicy}
    (h : restartPolicyToGRPC (some p) = .ok r) :
    ∃ condition, r = some ⟨condition, p.delay.map durationProto, p.maxAttempts.getD 0,
      p.window.map durationProto⟩ := by
  unfold restartPolicyToGRPC at h
  dsimp only at h
  -- each condition that is accepted leads to the same policy
  split_ifs at h <;>
    simp only [bind, Except.bind, pure, Except.pure, Except.ok.injEq, reduceCtorEq] at h <;>
    exact ⟨_, h.symm⟩

theorem restartPolicyToGRPC_normal {p : Option Types.RestartPolicy}
    {r : Option Swarmapi.RestartPolicy} (h : restartPolicyToGRPC p = .ok r) :
    ∀ x ∈ r, (∀ d ∈ x.delay, d.Normal) ∧ ∀ w ∈ x.window, w.Normal := by
  intro x hx
  rcases p with _ | p
  · cases h
    cases hx
  · obtain ⟨condition, rfl⟩ := restartPolicyToGRPC_some h
    cases hx
    constructor
    · intro d hd
      obtain ⟨e, -, rfl⟩ := Option.mem_map.mp hd
      exact normal_durationProto e
    · intro w hw
      obtain ⟨e, -, rfl⟩ := Option.mem_map.mp hw
      exact normal_durationProto e

theorem updateConfigToGRPC_some {u : Types.UpdateConfig} {r : Option Swarmapi.UpdateConfig}
    (h : updateConfigToGRPC (some u) = .ok r) :
    ∃ failureAction, r = some ⟨u.parallelism, durationProto u.delay, failureAction⟩ := by
  unfold updateConfigToGRPC at h
  dsimp only at h
  split_ifs at h <;>
    simp only [bind, Except.bind, pure, Except.pure, Except.ok.injEq, reduceCtorEq] at h <;>
    exact ⟨_, h.symm⟩

theorem updateConfigToGRPC_normal {u : Option Types.UpdateConfig}
    {r : Option Swarmapi.UpdateConfig} (h : updateConfigToGRPC u = .ok r) :
    ∀ x ∈ r, x.delay.Normal := by
  intro x hx
  rcases u with _ | u
  · cases h
    cases hx
  · obtain ⟨failureAction, rfl⟩ := updateConfigToGRPC_some h
    cases hx
    exact normal_durationProto u.delay

/-- Every spec `ServiceSpecToGRPC` makes is stable, when the drawn name is not empty. -/
theorem serviceSpecToGRPC_stable {randomName : String} {s : Types.ServiceSpec}
    {g : Swarmapi.ServiceSpec} (hr : randomName ≠ "") (h : serviceSpecToGRPC randomName s = .ok g) :
    g.Stable := by
  unfold serviceSpecToGRPC at h
  obtain ⟨c, hc, h⟩ := bind_eq_ok h
  obtain ⟨restart, hrestart, h⟩ := bind_eq_ok h
  obtain ⟨update, hupdate, h⟩ := bind_eq_ok h
  obtain ⟨endpoint, -, h⟩ := bind_eq_ok h
  cases h
  refine ⟨?_, ⟨c, rfl, containerToGRPC_stopGracePeriod hc⟩, restartPolicyToGRPC_normal hrestart,
    updateConfigToGRPC_normal hupdate, rfl⟩
  -- an empty name is replaced by the drawn one
  dsimp only
  split
  · exact hr
  · assumption

/-! ## 6. `docker service update` -/

/-- A spec sent, read back from the stored service and sent again, is stored unchanged. -/
theorem serviceSpecToGRPC_round_trip (randomName redrawn : String) (s : Types.ServiceSpec)
    (g : Swarmapi.ServiceSpec) (hr : randomName ≠ "") (h : serviceSpecToGRPC randomName s = .ok g) :
    ∃ svc, serviceFromGRPC ⟨"", 0, g, none, none⟩ = some svc ∧
      serviceSpecToGRPC redrawn svc.spec = .ok g :=
  serviceSpecToGRPC_serviceFromGRPC redrawn (s := ⟨"", 0, g, none, none⟩)
    (serviceSpecToGRPC_stable hr h)

/-- A service with no name, the default restart condition and the default failure action. -/
def webSpec : Types.ServiceSpec where
  annotations := ⟨"", []⟩
  taskTemplate := {
    containerSpec := ⟨"nginx", [], [], [], [], "", "", [], none⟩
    resources := none
    restartPolicy := some ⟨"", none, none, none⟩
    placement := none
    logDriver := none }
  mode := ⟨none, none⟩
  updateConfig := some ⟨2, Duration.zero, ""⟩
  networks := []
  endpointSpec := none

def webGRPC : Swarmapi.ServiceSpec where
  annotations := ⟨"drawn_name", []⟩
  task := {
    runtime := some ⟨"nginx", [], [], [], [], "", "", [], none⟩
    resources := none
    restart := some ⟨.any, none, 0, none⟩
    placement := none
    logDriver := none }
  mode := some (.replicated 1)
  update := some ⟨2, ⟨0, 0⟩, .pause⟩
  networks := []
  endpoint := none

theorem serviceSpecToGRPC_round_trip_web :
    ∃ svc, serviceFromGRPC ⟨"", 0, webGRPC, none, none⟩ = some svc ∧
      serviceSpecToGRPC "other_name" svc.spec = .ok webGRPC :=
  serviceSpecToGRPC_round_trip "drawn_name" "other_name" webSpec webGRPC (by decide) (by rfl)

end Docker.Cluster
