import PanelClient.Json.Value
/-!
# What the panel talks about

The types that are exchanged with the backend, each with the way it is read and written: users,
server instances with their launch settings, the requests to log in and to create an instance, and
the statistics of the host.
-/

namespace PanelClient

open Json

/-- A user of the panel. -/
structure User where
  name : String
  username : String
  permissions : String
  deriving DecidableEq, Repr, Inhabited

namespace User

/-- The fields of a user. -/
def fields (room : Nat) : List Field :=
  [.of String room "name", .of String room "username", .of String room "permissions"]

instance : FromJson User where
  read room d := do
    let s ← Slots.gather (fields room) d
    return {
      name := ← s.required room "name"
      username := ← s.required room "username"
      permissions := ← s.required room "permissions" }

instance : ToJson User where
  toValue u := .object
    [("name", toValue u.name), ("username", toValue u.username),
      ("permissions", toValue u.permissions)]

end User

/-- How an instance is launched. -/
structure LaunchConfig where
  /-- The Java executable. -/
  java : String
  /-- The greatest size of the heap, in MiB. -/
  maxRam : UInt64
  jvmArgs : List String
  serverFile : String
  args : List String
  distFolder : List String
  deriving DecidableEq, Repr, Inhabited

namespace LaunchConfig

/-- The fields of a launch configuration. -/
def fields (room : Nat) : List Field :=
  [.of String room "java", .of UInt64 room "max_ram", .of (List String) room "jvm_args",
    .of String room "server_file", .of (List String) room "args",
    .of (List String) room "dist_folder"]

instance : FromJson LaunchConfig where
  read room d := do
    let s ← Slots.gather (fields room) d
    return {
      java := ← s.required room "java"
      maxRam := ← s.required room "max_ram"
      jvmArgs := ← s.optional room "jvm_args" []
      serverFile := ← s.required room "server_file"
      args := ← s.optional room "args" []
      distFolder := ← s.optional room "dist_folder" [] }

instance : ToJson LaunchConfig where
  toValue c := .object
    [("java", toValue c.java), ("max_ram", toValue c.maxRam), ("jvm_args", toValue c.jvmArgs),
      ("server_file", toValue c.serverFile), ("args", toValue c.args),
      ("dist_folder", toValue c.distFolder)]

end LaunchConfig

/-- A server that the panel manages. -/
structure Instance where
  config : LaunchConfig
  modType : String
  name : String
  version : String
  deriving DecidableEq, Repr, Inhabited

namespace Instance

/-- The fields of an instance. -/
def fields (room : Nat) : List Field :=
  [.of LaunchConfig room "config", .of String room "mod_type", .of String room "name",
    .of String room "version"]

instance : FromJson Instance where
  read room d := do
    let s ← Slots.gather (fields room) d
    return {
      config := ← s.required room "config"
      modType := ← s.required room "mod_type"
      name := ← s.required room "name"
      version := ← s.required room "version" }

instance : ToJson Instance where
  toValue i := .object
    [("config", toValue i.config), ("mod_type", toValue i.modType), ("name", toValue i.name),
      ("version", toValue i.version)]

end Instance

/-- The flavour of a new instance. -/
inductive InstanceType where
  /-- Forge, in the given build. -/
  | forge (build : String)
  | vanilla
  | purpur
  deriving DecidableEq, Repr, Inhabited

namespace InstanceType

/-- The flavour that has no payload and the given name. -/
def bare : String → Except Fault InstanceType
  | "Vanilla" => .ok .vanilla
  | "Purpur" => .ok .purpur
  | _ => .error .mismatched

/-- The flavour of the given name, with its payload. -/
def loaded (room : Nat) (name : String) (d : Doc) : Except Fault InstanceType :=
  if name = "forge" then .forge <$> FromJson.read room d
  else do
    let t ← bare name
    let () ← FromJson.read room d
    return t

instance : FromJson InstanceType where
  read room := readChoice bare (loaded room)

instance : ToJson InstanceType where
  toValue
    | .forge build => .object [("forge", toValue build)]
    | .vanilla => .string "Vanilla"
    | .purpur => .string "Purpur"

end InstanceType

/-- The wish for a new instance. -/
structure NewInstance where
  type : InstanceType
  version : String
  deriving DecidableEq, Repr, Inhabited

namespace NewInstance

/-- The fields of the wish. -/
def fields (room : Nat) : List Field :=
  [.of InstanceType room "typ", .of String room "version"]

instance : FromJson NewInstance where
  read room d := do
    let s ← Slots.gather (fields room) d
    return { type := ← s.required room "typ", version := ← s.required room "version" }

instance : ToJson NewInstance where
  toValue r := .object [("typ", toValue r.type), ("version", toValue r.version)]

end NewInstance

/-- The wish to open a session. -/
structure Credentials where
  username : String
  password : String
  /-- The backend keeps the session in a cookie instead of sending a token. -/
  set : Bool
  deriving DecidableEq, Repr, Inhabited

namespace Credentials

/-- The fields of the wish. -/
def fields (room : Nat) : List Field :=
  [.of String room "username", .of String room "password", .of Bool room "set"]

instance : FromJson Credentials where
  read room d := do
    let s ← Slots.gather (fields room) d
    return {
      username := ← s.required room "username"
      password := ← s.required room "password"
      set := ← s.required room "set" }

instance : ToJson Credentials where
  toValue c := .object
    [("username", toValue c.username), ("password", toValue c.password), ("set", toValue c.set)]

end Credentials

/-- Statistics of the host that runs the backend. Amounts of memory are in KiB. -/
structure SystemInfo where
  os : String
  arch : String
  hostname : String
  cpus : UInt32
  /-- The clock rate of a processor, in MHz. -/
  cpuClock : UInt64
  memTotal : UInt64
  memFree : UInt64
  memAvail : UInt64
  memBuff : UInt64
  memCache : UInt64
  memShm : UInt64
  memUsed : UInt64
  swapTotal : UInt64
  swapFree : UInt64
  /-- The load averages over one, five and fifteen minutes. -/
  load1 : Binary64
  load5 : Binary64
  load15 : Binary64
  deriving DecidableEq, Repr, Inhabited

namespace SystemInfo

/-- The fields of the statistics. -/
def fields (room : Nat) : List Field :=
  [.of String room "os", .of String room "arch", .of String room "hostname",
    .of UInt32 room "cpus", .of UInt64 room "cpu_clock", .of UInt64 room "mem_total",
    .of UInt64 room "mem_free", .of UInt64 room "mem_avail", .of UInt64 room "mem_buff",
    .of UInt64 room "mem_cache", .of UInt64 room "mem_shm", .of UInt64 room "mem_used",
    .of UInt64 room "swap_total", .of UInt64 room "swap_free", .of Binary64 room "load_1",
    .of Binary64 room "load_5", .of Binary64 room "load_15"]

instance : FromJson SystemInfo where
  read room d := do
    let s ← Slots.gather (fields room) d
    let zero : Binary64 := ⟨false, 0⟩
    return {
      os := ← s.optional room "os" ""
      arch := ← s.optional room "arch" ""
      hostname := ← s.optional room "hostname" ""
      cpus := ← s.optional room "cpus" 0
      cpuClock := ← s.optional room "cpu_clock" 0
      memTotal := ← s.optional room "mem_total" 0
      memFree := ← s.optional room "mem_free" 0
      memAvail := ← s.optional room "mem_avail" 0
      memBuff := ← s.optional room "mem_buff" 0
      memCache := ← s.optional room "mem_cache" 0
      memShm := ← s.optional room "mem_shm" 0
      memUsed := ← s.optional room "mem_used" 0
      swapTotal := ← s.optional room "swap_total" 0
      swapFree := ← s.optional room "swap_free" 0
      load1 := ← s.optional room "load_1" zero
      load5 := ← s.optional room "load_5" zero
      load15 := ← s.optional room "load_15" zero }

instance : ToJson SystemInfo where
  toValue i := .object
    [("os", toValue i.os), ("arch", toValue i.arch), ("hostname", toValue i.hostname),
      ("cpus", toValue i.cpus), ("cpu_clock", toValue i.cpuClock),
      ("mem_total", toValue i.memTotal), ("mem_free", toValue i.memFree),
      ("mem_avail", toValue i.memAvail), ("mem_buff", toValue i.memBuff),
      ("mem_cache", toValue i.memCache), ("mem_shm", toValue i.memShm),
      ("mem_used", toValue i.memUsed), ("swap_total", toValue i.swapTotal),
      ("swap_free", toValue i.swapFree), ("load_1", toValue i.load1),
      ("load_5", toValue i.load5), ("load_15", toValue i.load15)]

end SystemInfo

end PanelClient
