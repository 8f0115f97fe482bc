/-
The binary topology file: a header, a system record, an array of dispatcher
records, an array of actor records and a string table.  `serialize_topology`
writes the CPU affinities of a dispatcher before its record and the arguments
of an actor after its record; `load_binary_topology` reads both arrays as if
nothing stood between the records.

Records are laid out with natural alignment, lowest byte first.  The loader
repeats the record types of `binary_format.hpp` under other names.
-/
import Mathlib.Data.List.Nodup
import Mathlib.Algebra.Group.Int.Defs
import HPActor.RecordCodec
import HPActor.TextPool

namespace HPActor

open RecordCodec Codec List

/-- The bytes of a `std::string`. -/
abbrev Text := List UInt8

/-! Only the fields that the format stores. -/

/-- An enumerator, or a value of the underlying type that has no name. -/
inductive DispatchPolicy where
  | cooperative
  | dedicatedThread
  | dedicatedPool
  | unnamed (value : UInt8) (hvalue : 3 ≤ value)

namespace DispatchPolicy

def code : DispatchPolicy → UInt8
  | .cooperative => 0
  | .dedicatedThread => 1
  | .dedicatedPool => 2
  | .unnamed value _ => value

def ofCode (value : UInt8) : DispatchPolicy :=
  if hvalue : 3 ≤ value then .unnamed value hvalue
  else if value = 0 then .cooperative
  else if value = 1 then .dedicatedThread
  else .dedicatedPool

@[simp] theorem ofCode_code (policy : DispatchPolicy) : ofCode policy.code = policy := by
  cases policy with
  | unnamed value hvalue => exact dif_pos hvalue
  | cooperative | dedicatedThread | dedicatedPool => rfl

end DispatchPolicy

inductive SamplerKind where
  | alwaysOff
  | alwaysOn
  | traceIdRatio
  | parentBasedTraceIdRatio
  | unnamed (value : UInt8) (hvalue : 4 ≤ value)

namespace SamplerKind

def code : SamplerKind → UInt8
  | .alwaysOff => 0
  | .alwaysOn => 1
  | .traceIdRatio => 2
  | .parentBasedTraceIdRatio => 3
  | .unnamed value _ => value

def ofCode (value : UInt8) : SamplerKind :=
  if hvalue : 4 ≤ value then .unnamed value hvalue
  else if value = 0 then .alwaysOff
  else if value = 1 then .alwaysOn
  else if value = 2 then .traceIdRatio
  else .parentBasedTraceIdRatio

@[simp] theorem ofCode_code (kind : SamplerKind) : ofCode kind.code = kind := by
  cases kind with
  | unnamed value hvalue => exact dif_pos hvalue
  | alwaysOff | alwaysOn | traceIdRatio | parentBasedTraceIdRatio => rfl

end SamplerKind

inductive TraceExporterKind where
  | noop
  | memory
  | jsonFile
  | otlpHttp
  | unnamed (value : UInt8) (hvalue : 4 ≤ value)

namespace TraceExporterKind

def code : TraceExporterKind → UInt8
  | .noop => 0
  | .memory => 1
  | .jsonFile => 2
  | .otlpHttp => 3
  | .unnamed value _ => value

def ofCode (value : UInt8) : TraceExporterKind :=
  if hvalue : 4 ≤ value then .unnamed value hvalue
  else if value = 0 then .noop
  else if value = 1 then .memory
  else if value = 2 then .jsonFile
  else .otlpHttp

@[simp] theorem ofCode_code (kind : TraceExporterKind) : ofCode kind.code = kind := by
  cases kind with
  | unnamed value hvalue => exact dif_pos hvalue
  | noop | memory | jsonFile | otlpHttp => rfl

end TraceExporterKind

structure TraceConfig where
  enabled : Bool
  propagateUnsampled : Bool
  ringBufferCapacity : UInt32
  serviceName : Text
  sampler : SamplerKind
  /-- The bits of the `double`. -/
  sampleRatio : UInt64
  exporter : TraceExporterKind
  otlpEndpoint : Text
  jsonFilePath : Text
  /-- In milliseconds. -/
  exportInterval : Int
  maxExportBatchSize : UInt32
  maxTracestateLen : UInt16

structure SystemDef where
  version : Text
  schedulerThreads : UInt32
  maxQueueDepth : UInt32
  enableNetwork : Bool
  tcpPort : UInt16
  spawnTimeoutMs : UInt32
  enableHttpGateway : Bool
  httpPort : UInt16
  httpBindHost : Text
  httpMaxConnections : UInt32
  httpMaxRequestSize : UInt32
  httpReplyTimeoutMs : UInt32
  defaultMailboxSize : UInt32
  useCoroutines : Bool
  tracing : TraceConfig

structure DispatcherDef where
  name : Text
  threads : UInt16
  cpuAffinity : List UInt8
deriving DecidableEq

/-- The arguments of an actor, in the order in which the map is iterated. -/
structure ArgMap where
  entries : List (Text × Text)
  nodup : (entries.map Prod.fst).Nodup

namespace ArgMap

def empty : ArgMap := ⟨[], List.nodup_nil⟩

theorem keys_replace (entries : List (Text × Text)) (key value : Text) :
    (entries.map fun entry =>
      if entry.1 = key then (key, value) else entry).map Prod.fst = entries.map Prod.fst := by
  rw [map_map]
  apply map_congr_left
  intro entry _
  by_cases hentry : entry.1 = key
  · simp [hentry]
  · simp [hentry]

theorem keys_add {entries : List (Text × Text)} {key : Text} (value : Text)
    (hentries : (entries.map Prod.fst).Nodup) (hkey : key ∉ entries.map Prod.fst) :
    ((entries ++ [(key, value)]).map Prod.fst).Nodup := by
  rw [map_append, map_singleton]
  apply nodup_append.mpr
  refine ⟨hentries, nodup_singleton _, ?_⟩
  intro old hold new hnew heq
  rw [heq, mem_singleton.mp hnew] at hold
  exact hkey hold

/-- The assignment `args[key] = value`. -/
def set (args : ArgMap) (key value : Text) : ArgMap :=
  if hkey : key ∈ args.entries.map Prod.fst then
    { entries := args.entries.map fun entry =>
        if entry.1 = key then (key, value) else entry
      nodup := by
        rw [keys_replace]
        exact args.nodup }
  else
    { entries := args.entries ++ [(key, value)]
      nodup := keys_add value args.nodup hkey }

end ArgMap

structure ResourceSpec where
  slabClassBytes : UInt32
  maxMemoryKb : UInt32

structure ActorDef where
  id : Text
  behavior : Text
  supervisor : Text
  dispatcher : Text
  dispatchPolicy : DispatchPolicy
  mailboxCapacity : UInt32
  resources : ResourceSpec
  args : ArgMap

structure TopologyModel where
  system : SystemDef
  dispatchers : List DispatcherDef
  actors : List ActorDef

structure BinaryHeader where
  magic : UInt32
  version : UInt32
  systemOffset : UInt32
  dispatcherCount : UInt32
  dispatchersOffset : UInt32
  actorCount : UInt32
  actorsOffset : UInt32
  stringTableOffset : UInt32
  stringTableSize : UInt32

namespace BinaryHeader

def zero : BinaryHeader := ⟨0, 0, 0, 0, 0, 0, 0, 0, 0⟩

def codec : Codec BinaryHeader :=
  (uint32.pair <| uint32.pair <| uint32.pair <| uint32.pair <| uint32.pair <| uint32.pair <|
    uint32.pair <| uint32.pair uint32).map
    (fun (magic, version, systemOffset, dispatcherCount, dispatchersOffset,
        actorCount, actorsOffset, stringTableOffset, stringTableSize) =>
      { magic, version, systemOffset, dispatcherCount, dispatchersOffset,
        actorCount, actorsOffset, stringTableOffset, stringTableSize })
    (fun h => (h.magic, h.version, h.systemOffset, h.dispatcherCount,
      h.dispatchersOffset, h.actorCount, h.actorsOffset, h.stringTableOffset,
      h.stringTableSize))
    fun _ => rfl

end BinaryHeader

structure BinarySystemDef where
  schedulerThreads : UInt32
  maxQueueDepth : UInt32
  defaultMailboxSize : UInt32
  enableNetwork : UInt32
  tcpPort : UInt16
  reservedPad : UInt16
  spawnTimeoutMs : UInt32
  enableHttpGateway : UInt32
  httpPort : UInt16
  httpMaxConnections : UInt32
  httpMaxRequestSize : UInt32
  httpReplyTimeoutMs : UInt32
  useCoroutines : UInt32
  versionOffset : UInt32
  httpBindHostOffset : UInt32
  tracingEnabled : UInt32
  tracingPropagateUnsampled : UInt32
  tracingRingBufferCapacity : UInt32
  tracingSampler : UInt32
  tracingExporter : UInt32
  tracingSampleRatio : UInt64
  tracingExportIntervalMs : UInt32
  tracingMaxExportBatchSize : UInt32
  tracingMaxTracestateLen : UInt16
  tracingPad : UInt16
  tracingFlags : UInt32
  tracingServiceNameOffset : UInt32
  tracingOtlpEndpointOffset : UInt32
  tracingJsonFilePathOffset : UInt32

/-- Two bytes of padding after `http_port`, four before the `double` and four
at the end. -/
def BinarySystemDef.codec : Codec BinarySystemDef :=
  (uint32.pair <| uint32.pair <| uint32.pair <| uint32.pair <| uint16.pair <| uint16.pair <|
    uint32.pair <| uint32.pair <| (uint16.padded 2).pair <|
    uint32.pair <| uint32.pair <| uint32.pair <|
    uint32.pair <| uint32.pair <| uint32.pair <|
    uint32.pair <| uint32.pair <| uint32.pair <|
    uint32.pair <| (uint32.padded 4).pair <|
    uint64.pair <| uint32.pair <| uint32.pair <|
    uint16.pair <| uint16.pair <| uint32.pair <|
    uint32.pair <| uint32.pair (uint32.padded 4)).map
    (fun (schedulerThreads, maxQueueDepth, defaultMailboxSize, enableNetwork,
        tcpPort, reservedPad, spawnTimeoutMs, enableHttpGateway, httpPort,
        httpMaxConnections, httpMaxRequestSize, httpReplyTimeoutMs,
        useCoroutines, versionOffset, httpBindHostOffset, tracingEnabled,
        tracingPropagateUnsampled, tracingRingBufferCapacity, tracingSampler,
        tracingExporter, tracingSampleRatio, tracingExportIntervalMs,
        tracingMaxExportBatchSize, tracingMaxTracestateLen, tracingPad,
        tracingFlags, tracingServiceNameOffset, tracingOtlpEndpointOffset,
        tracingJsonFilePathOffset) =>
      { schedulerThreads, maxQueueDepth, defaultMailboxSize, enableNetwork
        tcpPort, reservedPad, spawnTimeoutMs, enableHttpGateway, httpPort
        httpMaxConnections, httpMaxRequestSize, httpReplyTimeoutMs
        useCoroutines, versionOffset, httpBindHostOffset, tracingEnabled
        tracingPropagateUnsampled, tracingRingBufferCapacity, tracingSampler
        tracingExporter, tracingSampleRatio, tracingExportIntervalMs
        tracingMaxExportBatchSize, tracingMaxTracestateLen, tracingPad
        tracingFlags, tracingServiceNameOffset, tracingOtlpEndpointOffset
        tracingJsonFilePathOffset })
    (fun r => (r.schedulerThreads, r.maxQueueDepth, r.defaultMailboxSize,
      r.enableNetwork, r.tcpPort, r.reservedPad, r.spawnTimeoutMs,
      r.enableHttpGateway, r.httpPort, r.httpMaxConnections,
      r.httpMaxRequestSize, r.httpReplyTimeoutMs, r.useCoroutines,
      r.versionOffset, r.httpBindHostOffset, r.tracingEnabled,
      r.tracingPropagateUnsampled, r.tracingRingBufferCapacity,
      r.tracingSampler, r.tracingExporter, r.tracingSampleRatio,
      r.tracingExportIntervalMs, r.tracingMaxExportBatchSize,
      r.tracingMaxTracestateLen, r.tracingPad, r.tracingFlags,
      r.tracingServiceNameOffset, r.tracingOtlpEndpointOffset,
      r.tracingJsonFilePathOffset))
    fun _ => rfl

structure BinaryDispatcherDef where
  nameOffset : UInt32
  threads : UInt16
  cpuAffinityCount : UInt16
  cpuAffinityOffset : UInt32

def BinaryDispatcherDef.codec : Codec BinaryDispatcherDef :=
  (uint32.pair <| uint16.pair <| uint16.pair uint32).map
    (fun (nameOffset, threads, cpuAffinityCount, cpuAffinityOffset) =>
      { nameOffset, threads, cpuAffinityCount, cpuAffinityOffset })
    (fun r => (r.nameOffset, r.threads, r.cpuAffinityCount, r.cpuAffinityOffset))
    fun _ => rfl

structure BinaryActorDef where
  idOffset : UInt32
  behaviorOffset : UInt32
  supervisorOffset : UInt32
  dispatcherOffset : UInt32
  dispatchPolicy : UInt8
  mailboxCapacity : UInt32
  slabClassBytes : UInt32
  maxMemoryKb : UInt32
  argsCount : UInt16
  argsOffset : UInt32

/-- Three bytes of padding after `dispatch_policy`, two after `args_count`. -/
def BinaryActorDef.codec : Codec BinaryActorDef :=
  (uint32.pair <| uint32.pair <| uint32.pair <| uint32.pair <| (uint8.padded 3).pair <|
    uint32.pair <| uint32.pair <| uint32.pair <|
    (uint16.padded 2).pair uint32).map
    (fun (idOffset, behaviorOffset, supervisorOffset, dispatcherOffset,
        dispatchPolicy, mailboxCapacity, slabClassBytes, maxMemoryKb,
        argsCount, argsOffset) =>
      { idOffset, behaviorOffset, supervisorOffset, dispatcherOffset
        dispatchPolicy, mailboxCapacity, slabClassBytes, maxMemoryKb
        argsCount, argsOffset })
    (fun r => (r.idOffset, r.behaviorOffset, r.supervisorOffset,
      r.dispatcherOffset, r.dispatchPolicy, r.mailboxCapacity,
      r.slabClassBytes, r.maxMemoryKb, r.argsCount, r.argsOffset))
    fun _ => rfl

structure BinaryKeyValue where
  keyOffset : UInt32
  valueOffset : UInt32

def BinaryKeyValue.codec : Codec BinaryKeyValue :=
  (uint32.pair uint32).map (fun (keyOffset, valueOffset) => { keyOffset, valueOffset })
    (fun r => (r.keyOffset, r.valueOffset))
    fun _ => rfl

example : BinaryHeader.codec.size = 36 ∧ BinarySystemDef.codec.size = 120 ∧
    BinaryDispatcherDef.codec.size = 12 ∧ BinaryActorDef.codec.size = 40 ∧
      BinaryKeyValue.codec.size = 8 := by decide

/-- A `bool` stored as a `uint32_t`. -/
def boolField (b : Bool) : UInt32 := if b then 1 else 0

structure BinaryWriter where
  buf : List UInt8
  strings : TextPool UInt8 0

namespace BinaryWriter

def new : BinaryWriter := ⟨[], TextPool.empty 0⟩

variable (w : BinaryWriter)

def addString (s : Text) : UInt32 × BinaryWriter :=
  (UInt32.ofNat (w.strings.intern s).1,
    { w with strings := (w.strings.intern s).2 })

def currentOffset : UInt32 := UInt32.ofNat w.buf.length

def writeBytes (data : List UInt8) : UInt32 × BinaryWriter :=
  (w.currentOffset, { w with buf := w.buf ++ data })

def write {α : Type} (w : BinaryWriter) (codec : Codec α) (val : α) : UInt32 × BinaryWriter :=
  w.writeBytes (codec.encode val)

/-- The header at the front of the buffer, changed in place. -/
def patchHeader (change : BinaryHeader → BinaryHeader) (bytes : List UInt8) : List UInt8 :=
  match BinaryHeader.codec.decode bytes with
  | some (header, rest) => BinaryHeader.codec.encode (change header) ++ rest
  | none => bytes

def finalize : List UInt8 :=
  patchHeader
    (fun header => { header with
      stringTableOffset := w.currentOffset
      stringTableSize := UInt32.ofNat w.strings.cells.length })
    (w.buf ++ w.strings.cells)

def writeSystem (system : SystemDef) : UInt32 × BinaryWriter :=
  let version := w.addString system.version
  let host := version.2.addString system.httpBindHost
  let service := host.2.addString system.tracing.serviceName
  let otlp := service.2.addString system.tracing.otlpEndpoint
  let json := otlp.2.addString system.tracing.jsonFilePath
  json.2.write BinarySystemDef.codec
    { schedulerThreads := system.schedulerThreads
      maxQueueDepth := system.maxQueueDepth
      defaultMailboxSize := system.defaultMailboxSize
      enableNetwork := boolField system.enableNetwork
      tcpPort := system.tcpPort
      reservedPad := 0
      spawnTimeoutMs := system.spawnTimeoutMs
      enableHttpGateway := boolField system.enableHttpGateway
      httpPort := system.httpPort
      httpMaxConnections := system.httpMaxConnections
      httpMaxRequestSize := system.httpMaxRequestSize
      httpReplyTimeoutMs := system.httpReplyTimeoutMs
      useCoroutines := boolField system.useCoroutines
      versionOffset := version.1
      httpBindHostOffset := host.1
      tracingEnabled := boolField system.tracing.enabled
      tracingPropagateUnsampled := boolField system.tracing.propagateUnsampled
      tracingRingBufferCapacity := system.tracing.ringBufferCapacity
      tracingSampler := system.tracing.sampler.code.toUInt32
      tracingExporter := system.tracing.exporter.code.toUInt32
      tracingSampleRatio := system.tracing.sampleRatio
      tracingExportIntervalMs :=
        UInt32.ofNat (system.tracing.exportInterval % 2 ^ 32).toNat
      tracingMaxExportBatchSize := system.tracing.maxExportBatchSize
      tracingMaxTracestateLen := system.tracing.maxTracestateLen
      tracingPad := 0
      tracingFlags := 0
      tracingServiceNameOffset := service.1
      tracingOtlpEndpointOffset := otlp.1
      tracingJsonFilePathOffset := json.1 }

/-- The affinities come first, so the record does not stand where the previous
one ended. -/
def writeDispatcher (d : DispatcherDef) : BinaryWriter :=
  let name := w.addString d.name
  let affinity :=
    if d.cpuAffinity = [] then (0, name.2) else name.2.writeBytes d.cpuAffinity
  (affinity.2.write BinaryDispatcherDef.codec
    { nameOffset := name.1
      threads := d.threads
      cpuAffinityCount := UInt16.ofNat d.cpuAffinity.length
      cpuAffinityOffset := affinity.1 }).2

def writeKeyValue (entry : Text × Text) : BinaryWriter :=
  let key := w.addString entry.1
  let value := key.2.addString entry.2
  (value.2.write BinaryKeyValue.codec
    { keyOffset := key.1, valueOffset := value.1 }).2

def writeActorRecord (a : ActorDef) : BinaryWriter :=
  let id := w.addString a.id
  let behavior := id.2.addString a.behavior
  let supervisor := behavior.2.addString a.supervisor
  let dispatcher := supervisor.2.addString a.dispatcher
  (dispatcher.2.write BinaryActorDef.codec
    { idOffset := id.1
      behaviorOffset := behavior.1
      supervisorOffset := supervisor.1
      dispatcherOffset := dispatcher.1
      dispatchPolicy := a.dispatchPolicy.code
      mailboxCapacity := a.mailboxCapacity
      slabClassBytes := a.resources.slabClassBytes
      maxMemoryKb := a.resources.maxMemoryKb
      argsCount := UInt16.ofNat a.args.entries.length
      argsOffset :=
        if a.args.entries = [] then 0
        else dispatcher.2.currentOffset + UInt32.ofNat BinaryActorDef.codec.size }).2

/-- The arguments follow the record, before the record of the next actor. -/
def writeActor (a : ActorDef) : BinaryWriter :=
  a.args.entries.foldl writeKeyValue (w.writeActorRecord a)

end BinaryWriter

def topologyBinaryMagic : UInt32 := 0x48504154

namespace TopologyModel

/-- The writer after the header was reserved. -/
def reserved : BinaryWriter :=
  (BinaryWriter.new.write BinaryHeader.codec BinaryHeader.zero).2

def systemWritten (model : TopologyModel) : UInt32 × BinaryWriter :=
  reserved.writeSystem model.system

def dispatchersWritten (model : TopologyModel) : BinaryWriter :=
  model.dispatchers.foldl BinaryWriter.writeDispatcher model.systemWritten.2

def actorsWritten (model : TopologyModel) : BinaryWriter :=
  model.actors.foldl BinaryWriter.writeActor model.dispatchersWritten

end TopologyModel

def serializeTopology (model : TopologyModel) : List UInt8 :=
  BinaryWriter.patchHeader
    (fun header => { header with
      magic := topologyBinaryMagic
      version := 1
      systemOffset := model.systemWritten.1
      dispatcherCount := UInt32.ofNat model.dispatchers.length
      dispatchersOffset := model.systemWritten.2.currentOffset
      actorCount := UInt32.ofNat model.actors.length
      actorsOffset := model.dispatchersWritten.currentOffset })
    model.actorsWritten.finalize

/-- `unknown` is the error the source returns; a read outside of the file is
undefined behaviour. -/
inductive LoadError where
  | unknown
  | outOfBounds

def strAt (bytes : List UInt8) (strTable : Nat) (offset : UInt32) : Option Text :=
  if offset = 0 then some [] else readText 0 bytes (strTable + offset.toNat)

section

variable (bytes : List UInt8) (strTable : Nat)

def loadSystem (rsys : BinarySystemDef) : Option SystemDef := do
  let version ← strAt bytes strTable rsys.versionOffset
  let httpBindHost ← strAt bytes strTable rsys.httpBindHostOffset
  let serviceName ← strAt bytes strTable rsys.tracingServiceNameOffset
  let otlpEndpoint ← strAt bytes strTable rsys.tracingOtlpEndpointOffset
  let jsonFilePath ← strAt bytes strTable rsys.tracingJsonFilePathOffset
  some
    { version
      schedulerThreads := rsys.schedulerThreads
      maxQueueDepth := rsys.maxQueueDepth
      enableNetwork := rsys.enableNetwork != 0
      tcpPort := rsys.tcpPort
      spawnTimeoutMs := rsys.spawnTimeoutMs
      enableHttpGateway := rsys.enableHttpGateway != 0
      httpPort := rsys.httpPort
      httpBindHost
      httpMaxConnections := rsys.httpMaxConnections
      httpMaxRequestSize := rsys.httpMaxRequestSize
      httpReplyTimeoutMs := rsys.httpReplyTimeoutMs
      defaultMailboxSize := rsys.defaultMailboxSize
      useCoroutines := rsys.useCoroutines != 0
      tracing :=
        { enabled := rsys.tracingEnabled != 0
          propagateUnsampled := rsys.tracingPropagateUnsampled != 0
          ringBufferCapacity := rsys.tracingRingBufferCapacity
          serviceName
          sampler := SamplerKind.ofCode rsys.tracingSampler.toUInt8
          sampleRatio := rsys.tracingSampleRatio
          exporter := TraceExporterKind.ofCode rsys.tracingExporter.toUInt8
          otlpEndpoint
          jsonFilePath
          exportInterval := rsys.tracingExportIntervalMs.toNat
          maxExportBatchSize := rsys.tracingMaxExportBatchSize
          maxTracestateLen := rsys.tracingMaxTracestateLen } }

def loadDispatcher (r : BinaryDispatcherDef) : Option DispatcherDef := do
  let name ← strAt bytes strTable r.nameOffset
  let cpuAffinity ←
    if r.cpuAffinityCount ≠ 0 ∧ r.cpuAffinityOffset ≠ 0 then
      uint8.readArray bytes r.cpuAffinityOffset.toNat r.cpuAffinityCount.toNat
    else some []
  some { name, threads := r.threads, cpuAffinity }

def loadKeyValue (r : BinaryKeyValue) : Option (Text × Text) := do
  let key ← strAt bytes strTable r.keyOffset
  let value ← strAt bytes strTable r.valueOffset
  some (key, value)

def loadArgs (ra : BinaryActorDef) : Option ArgMap :=
  if ra.argsCount ≠ 0 ∧ ra.argsOffset ≠ 0 then do
    let kvs ← BinaryKeyValue.codec.readArray bytes ra.argsOffset.toNat ra.argsCount.toNat
    let entries ← kvs.mapM (loadKeyValue bytes strTable)
    some (entries.foldl (fun args entry => args.set entry.1 entry.2) ArgMap.empty)
  else some ArgMap.empty

def loadActor (ra : BinaryActorDef) : Option ActorDef := do
  let id ← strAt bytes strTable ra.idOffset
  let behavior ← strAt bytes strTable ra.behaviorOffset
  let supervisor ← strAt bytes strTable ra.supervisorOffset
  let dispatcher ← strAt bytes strTable ra.dispatcherOffset
  let args ← loadArgs bytes strTable ra
  some
    { id, behavior, supervisor, dispatcher
      dispatchPolicy := DispatchPolicy.ofCode ra.dispatchPolicy
      mailboxCapacity := ra.mailboxCapacity
      resources :=
        { slabClassBytes := ra.slabClassBytes, maxMemoryKb := ra.maxMemoryKb }
      args }

end

def loadModel (bytes : List UInt8) (hdr : BinaryHeader) :
    Option TopologyModel := do
  let strTable := hdr.stringTableOffset.toNat
  let rsys ← BinarySystemDef.codec.readAt bytes hdr.systemOffset.toNat
  let system ← loadSystem bytes strTable rsys
  let rawDispatchers ← BinaryDispatcherDef.codec.readArray bytes
    hdr.dispatchersOffset.toNat hdr.dispatcherCount.toNat
  let dispatchers ← rawDispatchers.mapM (loadDispatcher bytes strTable)
  let rawActors ← BinaryActorDef.codec.readArray bytes hdr.actorsOffset.toNat hdr.actorCount.toNat
  let actors ← rawActors.mapM (loadActor bytes strTable)
  some { system, dispatchers, actors }

/-- The file with these contents, which `mmap` refuses when it is empty. -/
def loadBinaryTopology (bytes : List UInt8) : Except LoadError TopologyModel :=
  if bytes = [] then .error .unknown
  else
    match BinaryHeader.codec.readAt bytes 0 with
    | none => .error .outOfBounds
    | some hdr =>
      if hdr.magic ≠ topologyBinaryMagic then .error .unknown
      else
        match loadModel bytes hdr with
        | none => .error .outOfBounds
        | some model => .ok model

end HPActor
