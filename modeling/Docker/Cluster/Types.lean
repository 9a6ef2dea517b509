import Mathlib
import Docker.Cluster.Ptypes

/-!
# Types — the service specs of engine-api and of swarmkit

`Types` holds the engine-api side (`types/swarm`): the spec a client sends, with its enumerations
as strings.  `Swarmapi` holds the swarmkit side (`api/specs.proto`, `api/types.proto`): the spec the
cluster stores, with protobuf enumerations and `durpb.Duration`s.  Maps are association lists,
slices are lists (a nil slice is `[]`), pointers are `Option`s, and unsigned counters are `Nat`.

Only the fields the conversions of `daemon/cluster/convert` read or write are kept.  The swarmkit
fields no conversion sets (`ContainerSpec.PullOptions`, `Mount.TmpfsOptions`) are left out, and so
are the timestamps of `Meta` and `UpdateStatus`.  An enumeration holds only its named values: every
value a conversion writes is one of them.
-/

namespace Docker.Cluster

/-- A `map[string]string`. -/
abbrev Labels := List (String × String)

namespace Types

structure Annotations where
  name : String
  labels : Labels
  deriving DecidableEq

structure Driver where
  name : String
  options : Labels
  deriving DecidableEq

structure Resources where
  nanoCPUs : Int
  memoryBytes : Int
  deriving DecidableEq

structure ResourceRequirements where
  limits : Option Resources
  reservations : Option Resources
  deriving DecidableEq

structure RestartPolicy where
  condition : String
  delay : Option Duration
  maxAttempts : Option Nat
  window : Option Duration
  deriving DecidableEq

structure Placement where
  constraints : List String
  deriving DecidableEq

structure BindOptions where
  propagation : String
  deriving DecidableEq

structure VolumeOptions where
  noCopy : Bool
  labels : Labels
  driverConfig : Option Driver
  deriving DecidableEq

structure Mount where
  type : String
  source : String
  target : String
  readOnly : Bool
  bindOptions : Option BindOptions
  volumeOptions : Option VolumeOptions
  deriving DecidableEq

structure ContainerSpec where
  image : String
  labels : Labels
  command : List String
  args : List String
  env : List String
  dir : String
  user : String
  mounts : List Mount
  stopGracePeriod : Option Duration
  deriving DecidableEq

structure TaskSpec where
  containerSpec : ContainerSpec
  resources : Option ResourceRequirements
  restartPolicy : Option RestartPolicy
  placement : Option Placement
  logDriver : Option Driver
  deriving DecidableEq

structure ReplicatedService where
  replicas : Option Nat
  deriving DecidableEq

/-- A `ServiceMode`: `global` stands for the `*GlobalService`, an empty struct. -/
structure ServiceMode where
  replicated : Option ReplicatedService
  global : Option Unit
  deriving DecidableEq

structure UpdateConfig where
  parallelism : Nat
  delay : Duration
  failureAction : String
  deriving DecidableEq

structure NetworkAttachmentConfig where
  target : String
  aliases : List String
  deriving DecidableEq

structure PortConfig where
  name : String
  protocol : String
  targetPort : Nat
  publishedPort : Nat
  deriving DecidableEq

structure EndpointSpec where
  mode : String
  ports : List PortConfig
  deriving DecidableEq

structure ServiceSpec where
  annotations : Annotations
  taskTemplate : TaskSpec
  mode : ServiceMode
  updateConfig : Option UpdateConfig
  networks : List NetworkAttachmentConfig
  endpointSpec : Option EndpointSpec
  deriving DecidableEq

structure EndpointVirtualIP where
  networkID : String
  addr : String
  deriving DecidableEq

structure Endpoint where
  spec : EndpointSpec
  ports : List PortConfig
  virtualIPs : List EndpointVirtualIP
  deriving DecidableEq

structure UpdateStatus where
  state : String
  message : String
  deriving DecidableEq

structure Service where
  id : String
  version : Nat
  spec : ServiceSpec
  endpoint : Endpoint
  updateStatus : UpdateStatus
  deriving DecidableEq

end Types

namespace Swarmapi

/-! ## Enumerations, with their `_name` and `_value` maps -/

inductive MountType
  | bind
  | volume
  | tmpfs
  deriving DecidableEq, Repr

def MountType.name : MountType → String
  | .bind => "BIND"
  | .volume => "VOLUME"
  | .tmpfs => "TMPFS"

def MountType.value : String → Option MountType
  | "BIND" => some .bind
  | "VOLUME" => some .volume
  | "TMPFS" => some .tmpfs
  | _ => none

inductive MountPropagation
  | rprivate
  | «private»
  | rshared
  | shared
  | rslave
  | slave
  deriving DecidableEq, Repr

def MountPropagation.name : MountPropagation → String
  | .rprivate => "RPRIVATE"
  | .«private» => "PRIVATE"
  | .rshared => "RSHARED"
  | .shared => "SHARED"
  | .rslave => "RSLAVE"
  | .slave => "SLAVE"

def MountPropagation.value : String → Option MountPropagation
  | "RPRIVATE" => some .rprivate
  | "PRIVATE" => some .«private»
  | "RSHARED" => some .rshared
  | "SHARED" => some .shared
  | "RSLAVE" => some .rslave
  | "SLAVE" => some .slave
  | _ => none

/-- `RestartPolicy_RestartCondition`: `RestartOnNone`, `RestartOnFailure`, `RestartOnAny`. -/
inductive RestartCondition
  | none
  | onFailure
  | any
  deriving DecidableEq, Repr

inductive FailureAction
  | pause
  | continue
  deriving DecidableEq, Repr

inductive ResolutionMode
  | vip
  | dnsrr
  deriving DecidableEq, Repr

def ResolutionMode.name : ResolutionMode → String
  | .vip => "VIP"
  | .dnsrr => "DNSRR"

def ResolutionMode.value : String → Option ResolutionMode
  | "VIP" => some .vip
  | "DNSRR" => some .dnsrr
  | _ => none

inductive Protocol
  | tcp
  | udp
  deriving DecidableEq, Repr

def Protocol.name : Protocol → String
  | .tcp => "TCP"
  | .udp => "UDP"

def Protocol.value : String → Option Protocol
  | "TCP" => some .tcp
  | "UDP" => some .udp
  | _ => none

inductive UpdateState
  | unknown
  | updating
  | paused
  | completed
  deriving DecidableEq, Repr

/-! ## Messages -/

structure Annotations where
  name : String
  labels : Labels
  deriving DecidableEq

structure Driver where
  name : String
  options : Labels
  deriving DecidableEq

structure Resources where
  nanoCPUs : Int
  memoryBytes : Int
  deriving DecidableEq

structure ResourceRequirements where
  limits : Option Resources
  reservations : Option Resources
  deriving DecidableEq

structure RestartPolicy where
  condition : RestartCondition
  delay : Option ProtoDuration
  maxAttempts : Nat
  window : Option ProtoDuration
  deriving DecidableEq

structure Placement where
  constraints : List String
  deriving DecidableEq

structure BindOptions where
  propagation : MountPropagation
  deriving DecidableEq

structure VolumeOptions where
  noCopy : Bool
  labels : Labels
  driverConfig : Option Driver
  deriving DecidableEq

structure Mount where
  type : MountType
  source : String
  target : String
  readOnly : Bool
  bindOptions : Option BindOptions
  volumeOptions : Option VolumeOptions
  deriving DecidableEq

structure ContainerSpec where
  image : String
  labels : Labels
  command : List String
  args : List String
  env : List String
  dir : String
  user : String
  mounts : List Mount
  stopGracePeriod : Option ProtoDuration
  deriving DecidableEq

/-- A `TaskSpec`.  Its `Runtime` oneof has one kind, a container; `none` is a nil runtime. -/
structure TaskSpec where
  runtime : Option ContainerSpec
  resources : Option ResourceRequirements
  restart : Option RestartPolicy
  placement : Option Placement
  logDriver : Option Driver
  deriving DecidableEq

/-- The `Mode` oneof of a `ServiceSpec`. -/
inductive ServiceMode
  | replicated (replicas : Nat)
  | global
  deriving DecidableEq

structure UpdateConfig where
  parallelism : Nat
  delay : ProtoDuration
  failureAction : FailureAction
  deriving DecidableEq

structure NetworkAttachmentConfig where
  target : String
  aliases : List String
  deriving DecidableEq

structure PortConfig where
  name : String
  protocol : Protocol
  targetPort : Nat
  publishedPort : Nat
  deriving DecidableEq

structure EndpointSpec where
  mode : ResolutionMode
  ports : List PortConfig
  deriving DecidableEq

structure ServiceSpec where
  annotations : Annotations
  task : TaskSpec
  mode : Option ServiceMode
  update : Option UpdateConfig
  networks : List NetworkAttachmentConfig
  endpoint : Option EndpointSpec
  deriving DecidableEq

structure EndpointVirtualIP where
  networkID : String
  addr : String
  deriving DecidableEq

structure Endpoint where
  spec : Option EndpointSpec
  ports : List PortConfig
  virtualIPs : List EndpointVirtualIP
  deriving DecidableEq

structure UpdateStatus where
  state : UpdateState
  message : String
  deriving DecidableEq

structure Service where
  id : String
  version : Nat
  spec : ServiceSpec
  endpoint : Option Endpoint
  updateStatus : Option UpdateStatus
  deriving DecidableEq

end Swarmapi

end Docker.Cluster
