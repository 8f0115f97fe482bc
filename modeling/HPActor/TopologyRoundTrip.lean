/-
The binary topology file is read back as it was written when the records are
contiguous: no dispatcher has CPU affinities, and only the last actor has
arguments.  A record written by one step of the serializer loads the same in
every file whose string table extends the table of that step, so the records
of a whole array follow from the records of its elements.
-/
import HPActor.BinaryTopology

namespace HPActor

open RecordCodec List Option BinaryHeader Codec UInt32 BinaryWriter

namespace BinaryWriter

/-- The string table of `v` extends that of `w`. -/
def Grows (w v : BinaryWriter) : Prop := w.strings.cells <+: v.strings.cells

theorem Grows.refl (w : BinaryWriter) : Grows w w := prefix_rfl

theorem Grows.trans {w v u : BinaryWriter} (hwv : Grows w v)
    (hvu : Grows v u) : Grows w u := List.IsPrefix.trans hwv hvu

variable {ρ α : Type}

/-- The raw value loads as `a` in every file that ends in an extension of the
string table. -/
def Loads (load : List UInt8 → Nat → ρ → Option α) (w : BinaryWriter) (raw : ρ) (a : α) : Prop :=
  ∀ front cells, w.strings.cells <+: cells → cells.length < 2 ^ 32 →
    load (front ++ cells) front.length raw = some a

variable {load : List UInt8 → Nat → ρ → Option α}

theorem Loads.grow {w v : BinaryWriter} {raw : ρ} {a : α}
    (hload : Loads load w raw a) (hgrows : Grows w v) : Loads load v raw a :=
  fun front cells hcells =>
    hload front cells (List.IsPrefix.trans hgrows hcells)

theorem grows_addString (w : BinaryWriter) (s : Text) :
    Grows w (w.addString s).2 := w.strings.isPrefix_intern s

theorem loads_addString (w : BinaryWriter) {s : Text} (hnul : 0 ∉ s) :
    Loads strAt (w.addString s).2 (w.addString s).1 s := by
  intro front cells hcells hfit
  have hrefers := (w.strings.refers_intern s).of_isPrefix hcells
  rcases hrefers with ⟨hzero, hempty⟩ | ⟨hpos, htext⟩
  · change strAt _ _ (ofNat (w.strings.intern s).1) = _
    rw [hzero, hempty]
    rfl
  · have hlt := Nat.lt_trans htext.offset_lt hfit
    have hnat : (w.addString s).1.toNat = (w.strings.intern s).1 :=
      toNat_ofNat_of_lt' hlt
    have hne : (w.addString s).1 ≠ 0 := by
      intro heq
      rw [heq] at hnat
      exact absurd hnat (Nat.ne_of_lt hpos)
    rw [strAt, if_neg hne, hnat]
    exact readText_of_hasText (htext.prepend front) hnul

/-- What one step of a loop over the elements of an array leaves behind. -/
structure Written (codec : Codec ρ) (load : List UInt8 → Nat → ρ → Option α) (w v : BinaryWriter)
    (a : α) (raw : ρ) : Prop where
  buf : v.buf = w.buf ++ codec.encode raw
  grows : Grows w v
  loads : Loads load v raw a

/-- The step lemma of such a loop gives the whole array. -/
theorem foldl_written {codec : Codec ρ} {write : BinaryWriter → α → BinaryWriter} {items : List α}
    (hone : ∀ w, ∀ a ∈ items, ∃ raw, Written codec load w (write w a) a raw) (w : BinaryWriter) :
    ∃ raws, (items.foldl write w).buf = w.buf ++ codec.encodeAll raws ∧
      Grows w (items.foldl write w) ∧
        List.Forall₂ (Loads load (items.foldl write w)) raws items := by
  induction items generalizing w with
  | nil => exact ⟨[], (append_nil _).symm, Grows.refl w, .nil⟩
  | cons a items ih =>
    obtain ⟨raw, hraw⟩ := hone w a mem_cons_self
    obtain ⟨raws, hbuf, hgrows, hloads⟩ :=
      ih (fun v b hb => hone v b (mem_cons_of_mem a hb)) (write w a)
    refine ⟨raw :: raws, ?_, hraw.grows.trans hgrows, .cons (hraw.loads.grow hgrows) hloads⟩
    rw [foldl_cons, hbuf, hraw.buf, encodeAll_cons, append_assoc]

/-- Records that load one by one load as a list. -/
theorem mapM_loads {w : BinaryWriter} {raws : List ρ} {items : List α}
    (hloads : List.Forall₂ (Loads load w) raws items) (front : List UInt8) {cells : List UInt8}
    (hcells : w.strings.cells <+: cells) (hfit : cells.length < 2 ^ 32) :
    raws.mapM (load (front ++ cells) front.length) = some items := by
  induction hloads with
  | nil => rfl
  | cons hraw _ ih =>
    rw [mapM_cons, hraw front cells hcells hfit, ih]
    rfl

theorem boolField_ne_zero (b : Bool) : (boolField b != 0) = b := by
  cases b <;> rfl

/-- An interval that fits its field comes back. -/
theorem interval_field {interval : Int} (hzero : 0 ≤ interval) (hlt : interval < 2 ^ 32) :
    ((UInt32.ofNat (interval % 2 ^ 32).toNat).toNat : Int) = interval := by
  rw [Int.emod_eq_of_lt hzero hlt]
  have hnat : interval.toNat < UInt32.size := by
    change interval.toNat < 2 ^ 32
    omega
  rw [UInt32.toNat_ofNat_of_lt' hnat]
  exact Int.toNat_of_nonneg hzero

end BinaryWriter

/-- The strings of a system record. -/
def SystemDef.texts (system : SystemDef) : List Text :=
  [system.version, system.httpBindHost, system.tracing.serviceName,
    system.tracing.otlpEndpoint, system.tracing.jsonFilePath]

def ActorDef.texts (a : ActorDef) : List Text :=
  [a.id, a.behavior, a.supervisor, a.dispatcher] ++
    a.args.entries.flatMap fun entry => [entry.1, entry.2]

namespace BinaryWriter

theorem writeSystem_written (w : BinaryWriter) {system : SystemDef}
    (hnul : ∀ s ∈ system.texts, 0 ∉ s) (hzero : 0 ≤ system.tracing.exportInterval)
    (hlt : system.tracing.exportInterval < 2 ^ 32) :
    ∃ raw, Written BinarySystemDef.codec loadSystem w (w.writeSystem system).2 system raw := by
  simp only [SystemDef.texts, mem_cons, not_mem_nil, or_false, forall_eq_or_imp, forall_eq] at hnul
  obtain ⟨hversion, hhost, hservice, hotlp, hjson⟩ := hnul
  -- the five strings, each good from the step that adds it on
  let version := w.addString system.version
  let host := version.2.addString system.httpBindHost
  let service := host.2.addString system.tracing.serviceName
  let otlp := service.2.addString system.tracing.otlpEndpoint
  let json := otlp.2.addString system.tracing.jsonFilePath
  have hgrow₄ : Grows otlp.2 json.2 := grows_addString _ _
  have hgrow₃ : Grows service.2 json.2 := (grows_addString _ _).trans hgrow₄
  have hgrow₂ : Grows host.2 json.2 := (grows_addString _ _).trans hgrow₃
  have hgrow₁ : Grows version.2 json.2 := (grows_addString _ _).trans hgrow₂
  refine ⟨_, rfl, (grows_addString w _).trans hgrow₁, ?_⟩
  intro front cells hcells hfit
  have h₁ := (loads_addString w hversion).grow hgrow₁ front cells hcells hfit
  have h₂ := (loads_addString version.2 hhost).grow hgrow₂ front cells hcells hfit
  have h₃ := (loads_addString host.2 hservice).grow hgrow₃ front cells hcells hfit
  have h₄ := (loads_addString service.2 hotlp).grow hgrow₄ front cells hcells hfit
  have h₅ := loads_addString otlp.2 hjson front cells hcells hfit
  simp only [version, host, service, otlp] at h₁ h₂ h₃ h₄ h₅
  simp only [loadSystem, h₁, h₂, h₃, h₄, h₅, bind_eq_bind, bind_some, boolField_ne_zero,
    UInt8.toUInt8_toUInt32, SamplerKind.ofCode_code, TraceExporterKind.ofCode_code,
    interval_field hzero hlt]

/-- The record of a dispatcher without affinities. -/
theorem writeDispatcher_written (w : BinaryWriter) {d : DispatcherDef}
    (hnul : 0 ∉ d.name) (hplain : d.cpuAffinity = []) :
    ∃ raw, Written BinaryDispatcherDef.codec loadDispatcher w (w.writeDispatcher d) d raw := by
  obtain ⟨name, threads, cpuAffinity⟩ := d
  cases hplain
  refine ⟨_, rfl, grows_addString w name, ?_⟩
  intro front cells hcells hfit
  have hname := loads_addString w hnul front cells hcells hfit
  simp only [loadDispatcher, hname, bind_eq_bind, bind_some]
  rfl

theorem writeKeyValue_written (w : BinaryWriter) {entry : Text × Text}
    (hkey : 0 ∉ entry.1) (hvalue : 0 ∉ entry.2) :
    ∃ raw, Written BinaryKeyValue.codec loadKeyValue w (w.writeKeyValue entry) entry raw := by
  let key := w.addString entry.1
  have hgrow : Grows key.2 (key.2.addString entry.2).2 := grows_addString _ _
  refine ⟨_, rfl, (grows_addString w _).trans hgrow, ?_⟩
  intro front cells hcells hfit
  have h₁ := (loads_addString w hkey).grow hgrow front cells hcells hfit
  have h₂ := loads_addString key.2 hvalue front cells hcells hfit
  simp only [key] at h₁ h₂
  simp only [loadKeyValue, h₁, h₂, bind_eq_bind, bind_some]

end BinaryWriter

namespace ArgMap

theorem eq_of_entries {args other : ArgMap}
    (hentries : args.entries = other.entries) : args = other := by
  cases args
  cases other
  cases hentries
  rfl

theorem set_entries {args : ArgMap} {key : Text} (value : Text)
    (hkey : key ∉ args.entries.map Prod.fst) :
    (args.set key value).entries = args.entries ++ [(key, value)] := by
  rw [set, dif_neg hkey]

/-- Assigning new keys one after the other appends them. -/
theorem foldl_set_entries (rest : List (Text × Text)) (args : ArgMap)
    (hnodup : ((args.entries ++ rest).map Prod.fst).Nodup) :
    (rest.foldl (fun args entry => args.set entry.1 entry.2) args).entries =
      args.entries ++ rest := by
  induction rest generalizing args with
  | nil => exact (append_nil _).symm
  | cons entry rest ih =>
    have hkey : entry.1 ∉ args.entries.map Prod.fst := by
      rw [map_append, map_cons] at hnodup
      exact fun hmem => (nodup_append.mp hnodup).2.2 _ hmem _ mem_cons_self rfl
    have hset := set_entries entry.2 hkey
    have happend : args.entries ++ entry :: rest = (args.set entry.1 entry.2).entries ++ rest := by
      rw [hset, append_assoc, singleton_append]
    rw [foldl_cons, happend]
    apply ih
    rw [← happend]
    exact hnodup

theorem foldl_set_empty (args : ArgMap) :
    args.entries.foldl (fun args entry => args.set entry.1 entry.2) empty =
      args :=
  eq_of_entries (foldl_set_entries args.entries empty args.nodup)

end ArgMap

namespace BinaryWriter

/-- The arguments that a record points at. -/
theorem loadArgs_of_readArray {bytes : List UInt8} {strTable offset : Nat}
    {raw : BinaryActorDef} {args : ArgMap} {kvs : List BinaryKeyValue}
    (hcount : raw.argsCount = UInt16.ofNat args.entries.length)
    (hfits : args.entries.length < 2 ^ 16)
    (hoffset : raw.argsOffset =
      if args.entries = [] then 0 else ofNat offset)
    (hread : args.entries ≠ [] → 0 < offset ∧ offset < 2 ^ 32 ∧
      BinaryKeyValue.codec.readArray bytes offset args.entries.length = some kvs)
    (hload : kvs.mapM (loadKeyValue bytes strTable) = some args.entries) :
    loadArgs bytes strTable raw = some args := by
  have hlength : raw.argsCount.toNat = args.entries.length := by
    rw [hcount]
    exact UInt16.toNat_ofNat_of_lt' hfits
  by_cases hempty : args.entries = []
  · have hzero : raw.argsCount = 0 := by
      rw [hcount, hempty]
      rfl
    rw [loadArgs, if_neg (fun h => h.1 hzero)]
    exact congrArg some (ArgMap.eq_of_entries hempty.symm)
  · obtain ⟨hpos, hlt, harray⟩ := hread hempty
    rw [if_neg hempty] at hoffset
    have hnat : raw.argsOffset.toNat = offset := by
      rw [hoffset]
      exact toNat_ofNat_of_lt' hlt
    have hcount_ne : raw.argsCount ≠ 0 := by
      intro hzero
      rw [hzero] at hlength
      exact hempty (eq_nil_of_length_eq_zero hlength.symm)
    have hoffset_ne : raw.argsOffset ≠ 0 := by
      intro hzero
      rw [hzero] at hnat
      exact absurd hnat (Nat.ne_of_lt hpos)
    rw [loadArgs, if_pos ⟨hcount_ne, hoffset_ne⟩, hnat, hlength, harray]
    simp only [bind_eq_bind, bind_some, hload, ArgMap.foldl_set_empty]

variable (w : BinaryWriter) {a : ActorDef}

section

variable (hnul : ∀ s ∈ a.texts, 0 ∉ s)
include hnul

/-- The record of an actor loads where its arguments do. -/
theorem writeActorRecord_written :
    ∃ raw, (w.writeActorRecord a).buf = w.buf ++ BinaryActorDef.codec.encode raw ∧
      Grows w (w.writeActorRecord a) ∧
      raw.argsCount = UInt16.ofNat a.args.entries.length ∧
      raw.argsOffset = (if a.args.entries = [] then 0
        else ofNat (w.buf.length + BinaryActorDef.codec.size)) ∧
      ∀ front cells, (w.writeActorRecord a).strings.cells <+: cells → cells.length < 2 ^ 32 →
        loadArgs (front ++ cells) front.length raw = some a.args →
        loadActor (front ++ cells) front.length raw = some a := by
  have htexts : ∀ s ∈ [a.id, a.behavior, a.supervisor, a.dispatcher],
      0 ∉ s := fun s hs => hnul s (mem_append_left _ hs)
  simp only [mem_cons, not_mem_nil, or_false, forall_eq_or_imp, forall_eq] at htexts
  obtain ⟨hid, hbehavior, hsupervisor, hdispatcher⟩ := htexts
  let id := w.addString a.id
  let behavior := id.2.addString a.behavior
  let supervisor := behavior.2.addString a.supervisor
  let dispatcher := supervisor.2.addString a.dispatcher
  have hgrow₃ : Grows supervisor.2 dispatcher.2 := grows_addString _ _
  have hgrow₂ : Grows behavior.2 dispatcher.2 :=
    (grows_addString _ _).trans hgrow₃
  have hgrow₁ : Grows id.2 dispatcher.2 := (grows_addString _ _).trans hgrow₂
  refine ⟨_, rfl, (grows_addString w _).trans hgrow₁, rfl, ?_, ?_⟩
  · rw [ofNat_add]
    rfl
  intro front cells hcells hfit hargs
  have h₁ := (loads_addString w hid).grow hgrow₁ front cells hcells hfit
  have h₂ := (loads_addString id.2 hbehavior).grow hgrow₂ front cells hcells hfit
  have h₃ := (loads_addString behavior.2 hsupervisor).grow hgrow₃ front cells hcells hfit
  have h₄ := loads_addString supervisor.2 hdispatcher front cells hcells hfit
  simp only [id, behavior, supervisor] at h₁ h₂ h₃ h₄
  simp only [loadActor, h₁, h₂, h₃, h₄, hargs, bind_eq_bind, bind_some, DispatchPolicy.ofCode_code]

/-- The record of an actor is followed by its arguments, and it loads where
the arguments are found behind it. -/
theorem writeActor_written (hfits : a.args.entries.length < 2 ^ 16) :
    ∃ raw kvs, (w.writeActor a).buf = w.buf ++
        (BinaryActorDef.codec.encode raw ++ BinaryKeyValue.codec.encodeAll kvs) ∧
      Grows w (w.writeActor a) ∧ kvs.length = a.args.entries.length ∧
      ∀ front cells, (w.writeActor a).strings.cells <+: cells → cells.length < 2 ^ 32 →
        (a.args.entries ≠ [] → w.buf.length + BinaryActorDef.codec.size < 2 ^ 32 ∧
          BinaryKeyValue.codec.readArray (front ++ cells)
            (w.buf.length + BinaryActorDef.codec.size) kvs.length = some kvs) →
        loadActor (front ++ cells) front.length raw = some a := by
  have hentries : ∀ v, ∀ entry ∈ a.args.entries, ∃ raw,
      Written BinaryKeyValue.codec loadKeyValue v (v.writeKeyValue entry)
        entry raw := by
    intro v entry hentry
    have htexts : ∀ s ∈ [entry.1, entry.2], 0 ∉ s := fun s hs =>
      hnul s (mem_append_right _ (mem_flatMap.mpr ⟨entry, hentry, hs⟩))
    exact v.writeKeyValue_written (htexts _ mem_cons_self)
      (htexts _ (mem_cons_of_mem _ mem_cons_self))
  obtain ⟨raw, hraw, hgrow, hcount, hoffset, hload⟩ :=
    w.writeActorRecord_written hnul
  obtain ⟨kvs, hkvs, hgrows, hloads⟩ :=
    foldl_written hentries (w.writeActorRecord a)
  have hlength : kvs.length = a.args.entries.length := hloads.length_eq
  refine ⟨raw, kvs, ?_, hgrow.trans hgrows, hlength, ?_⟩
  · rw [writeActor, hkvs, hraw, append_assoc]
  intro front cells hcells hfit hread
  apply hload front cells (List.IsPrefix.trans hgrows hcells) hfit
  apply loadArgs_of_readArray hcount hfits hoffset _ (mapM_loads hloads front hcells hfit)
  intro hne
  obtain ⟨hlt, harray⟩ := hread hne
  rw [hlength] at harray
  exact ⟨Nat.add_pos_right _ (by decide), hlt, harray⟩

/-- An actor without arguments leaves only its record. -/
theorem writeActor_written_of_nil (hempty : a.args.entries = []) :
    ∃ raw, Written BinaryActorDef.codec loadActor w (w.writeActor a) a raw := by
  have hfits : a.args.entries.length < 2 ^ 16 := by
    rw [hempty]
    decide
  obtain ⟨raw, kvs, hbuf, hgrows, hlength, hload⟩ :=
    w.writeActor_written hnul hfits
  rw [hempty] at hlength
  cases eq_nil_of_length_eq_zero hlength
  refine ⟨raw, ?_, hgrows, ?_⟩
  · rw [hbuf, encodeAll_nil, append_nil]
  · intro front cells hcells hfit
    exact hload front cells hcells hfit fun hne => absurd hempty hne

end

/-- When only the last actor has arguments, the records are contiguous and
the arguments follow the array. -/
theorem foldl_writeActor (w : BinaryWriter) {actors : List ActorDef}
    (hnul : ∀ a ∈ actors, ∀ s ∈ a.texts, 0 ∉ s)
    (hfits : ∀ a ∈ actors, a.args.entries.length < 2 ^ 16)
    (hargs : ∀ a ∈ actors.dropLast, a.args.entries = []) :
    ∃ raws tail, (actors.foldl writeActor w).buf = w.buf ++
        (BinaryActorDef.codec.encodeAll raws ++
          BinaryKeyValue.codec.encodeAll tail) ∧
      Grows w (actors.foldl writeActor w) ∧ raws.length = actors.length ∧
      ∀ front cells, (actors.foldl writeActor w).strings.cells <+: cells →
        cells.length < 2 ^ 32 →
        (tail ≠ [] →
          (w.buf ++ BinaryActorDef.codec.encodeAll raws).length < 2 ^ 32 ∧
          BinaryKeyValue.codec.readArray (front ++ cells)
            (w.buf ++ BinaryActorDef.codec.encodeAll raws).length
              tail.length = some tail) →
        raws.mapM (loadActor (front ++ cells) front.length) =
          some actors := by
  rcases eq_nil_or_concat actors with rfl | ⟨init, last, rfl⟩
  · refine ⟨[], [], (append_nil _).symm, Grows.refl w, rfl, ?_⟩
    intros
    rfl
  rw [concat_eq_append] at *
  rw [dropLast_concat] at hargs
  obtain ⟨raws, hraws, hgrow, hloads⟩ := foldl_written
    (fun v a ha => v.writeActor_written_of_nil
      (hnul a (mem_append_left _ ha)) (hargs a ha)) w
  obtain ⟨raw, tail, hbuf, hgrows, hlength, hload⟩ :=
    (init.foldl writeActor w).writeActor_written
      (hnul last (by simp)) (hfits last (by simp))
  have hend : ((init.foldl writeActor w).buf.length +
      BinaryActorDef.codec.size) =
        (w.buf ++ BinaryActorDef.codec.encodeAll (raws ++ [raw])).length := by
    simp only [hraws, length_append, encodeAll_length,
      length_singleton, Nat.add_mul, Nat.one_mul, Nat.add_assoc]
  refine ⟨raws ++ [raw], tail, ?_, ?_, ?_, ?_⟩
  · rw [foldl_append, foldl_cons, foldl_nil, hbuf, hraws, encodeAll_append,
      encodeAll_cons, encodeAll_nil, append_nil]
    simp only [append_assoc]
  · rw [foldl_append]
    exact hgrow.trans hgrows
  · rw [length_append, length_append, hloads.length_eq]
    rfl
  · intro front cells hcells hfit htail
    rw [foldl_append] at hcells
    have hinit := mapM_loads hloads front (List.IsPrefix.trans hgrows hcells) hfit
    have hlast := hload front cells hcells hfit (by
      intro hne
      rw [hend]
      apply htail
      intro hnil
      rw [hnil] at hlength
      exact hne (eq_nil_of_length_eq_zero hlength.symm))
    simp only [mapM_append, hinit, mapM_cons, mapM_nil, hlast]
    rfl

theorem patchHeader_encode (change : BinaryHeader → BinaryHeader)
    (header : BinaryHeader) (rest : List UInt8) :
    patchHeader change (codec.encode header ++ rest) =
      codec.encode (change header) ++ rest := by
  rw [patchHeader, codec.decode_encode]

end BinaryWriter

namespace TopologyModel

def texts (model : TopologyModel) : List Text :=
  model.system.texts ++ model.dispatchers.map DispatcherDef.name ++
    model.actors.flatMap ActorDef.texts

variable (model : TopologyModel)

/-- No string has a NUL byte. -/
def NulFree : Prop := ∀ s ∈ model.texts, 0 ∉ s

instance (model : TopologyModel) : Decidable model.NulFree :=
  inferInstanceAs (Decidable (∀ s ∈ _, _))

/-- The offsets, sizes and counts of the file fit their fields. -/
def TablesFit : Prop :=
  model.actorsWritten.buf.length < 2 ^ 32 ∧ model.actorsWritten.strings.cells.length < 2 ^ 32 ∧
    model.dispatchers.length < 2 ^ 32 ∧ model.actors.length < 2 ^ 32 ∧
    (∀ d ∈ model.dispatchers, d.cpuAffinity.length < 2 ^ 16) ∧
    ∀ a ∈ model.actors, a.args.entries.length < 2 ^ 16

instance (model : TopologyModel) : Decidable model.TablesFit :=
  inferInstanceAs (Decidable (_ ∧ _ ∧ _ ∧ _ ∧ (∀ d ∈ _, _) ∧ ∀ a ∈ _, _))

/-- Nothing stands between the records of an array. -/
def Contiguous : Prop :=
  (∀ d ∈ model.dispatchers, d.cpuAffinity = []) ∧ ∀ a ∈ model.actors.dropLast, a.args.entries = []

instance (model : TopologyModel) : Decidable model.Contiguous :=
  inferInstanceAs (Decidable ((∀ d ∈ _, _) ∧ ∀ a ∈ _, _))

/-- The export interval fits 32 bits. -/
def IntervalFits : Prop :=
  0 ≤ model.system.tracing.exportInterval ∧ model.system.tracing.exportInterval < 2 ^ 32

instance (model : TopologyModel) : Decidable model.IntervalFits :=
  inferInstanceAs (Decidable (_ ∧ _))

/-- The header that is patched in. -/
def header : BinaryHeader where
  magic := topologyBinaryMagic
  version := 1
  systemOffset := model.systemWritten.1
  dispatcherCount := UInt32.ofNat model.dispatchers.length
  dispatchersOffset := model.systemWritten.2.currentOffset
  actorCount := UInt32.ofNat model.actors.length
  actorsOffset := model.dispatchersWritten.currentOffset
  stringTableOffset := model.actorsWritten.currentOffset
  stringTableSize := UInt32.ofNat model.actorsWritten.strings.cells.length

theorem currentOffset_toNat {w : BinaryWriter}
    (hfit : w.buf.length < 2 ^ 32) : w.currentOffset.toNat = w.buf.length :=
  toNat_ofNat_of_lt' hfit

/-- The parts of the buffer that the serializer has written, each of which
loads in every file with the string table at its end. -/
structure Parts (model : TopologyModel) where
  rsys : BinarySystemDef
  rds : List BinaryDispatcherDef
  ras : List BinaryActorDef
  tail : List BinaryKeyValue
  systemBuf : model.systemWritten.2.buf = BinaryHeader.codec.encode BinaryHeader.zero ++
      BinarySystemDef.codec.encode rsys
  dispatchersBuf : model.dispatchersWritten.buf =
    model.systemWritten.2.buf ++ BinaryDispatcherDef.codec.encodeAll rds
  actorsBuf : model.actorsWritten.buf = model.dispatchersWritten.buf ++
    (BinaryActorDef.codec.encodeAll ras ++ BinaryKeyValue.codec.encodeAll tail)
  systemLoads : BinaryWriter.Loads loadSystem model.actorsWritten rsys model.system
  dispatchersLoad : List.Forall₂ (BinaryWriter.Loads loadDispatcher model.actorsWritten) rds
      model.dispatchers
  rasLength : ras.length = model.actors.length
  actorsLoad : ∀ front cells, model.actorsWritten.strings.cells <+: cells → cells.length < 2 ^ 32 →
    (tail ≠ [] → (model.dispatchersWritten.buf ++
        BinaryActorDef.codec.encodeAll ras).length < 2 ^ 32 ∧
      BinaryKeyValue.codec.readArray (front ++ cells)
        (model.dispatchersWritten.buf ++ BinaryActorDef.codec.encodeAll ras).length tail.length =
            some tail) →
    ras.mapM (loadActor (front ++ cells) front.length) = some model.actors

theorem nonempty_parts {model : TopologyModel} (hnul : model.NulFree)
    (hfit : model.TablesFit) (hcontiguous : model.Contiguous)
    (hinterval : model.IntervalFits) : Nonempty (Parts model) := by
  have hsystem_nul : ∀ s ∈ model.system.texts, 0 ∉ s := fun s hs =>
    hnul s (mem_append_left _ (mem_append_left _ hs))
  have hdispatcher_nul : ∀ d ∈ model.dispatchers, 0 ∉ d.name := fun d hd =>
    hnul _ (mem_append_left _ (mem_append_right _ (mem_map_of_mem hd)))
  have hactor_nul : ∀ a ∈ model.actors, ∀ s ∈ a.texts, 0 ∉ s :=
    fun a ha s hs => hnul s (mem_append_right _ (mem_flatMap.mpr ⟨a, ha, hs⟩))
  obtain ⟨rsys, hrsys⟩ := reserved.writeSystem_written hsystem_nul hinterval.1 hinterval.2
  obtain ⟨rds, hrds, hgrow₂, hloads⟩ := foldl_written
    (fun w d hd => w.writeDispatcher_written (hdispatcher_nul d hd)
      (hcontiguous.1 d hd)) model.systemWritten.2
  obtain ⟨ras, tail, hras, hgrow₃, hlength, hload⟩ :=
    model.dispatchersWritten.foldl_writeActor hactor_nul hfit.2.2.2.2.2 hcontiguous.2
  exact ⟨{
    rsys, rds, ras, tail
    systemBuf := hrsys.buf
    dispatchersBuf := hrds
    actorsBuf := hras
    systemLoads := hrsys.loads.grow (hgrow₂.trans hgrow₃)
    dispatchersLoad := hloads.imp fun _ _ hraw => hraw.grow hgrow₃
    rasLength := hlength
    actorsLoad := hload }⟩

namespace Parts

variable {model : TopologyModel} (parts : Parts model)

/-- The file up to the arguments of the last actor. -/
def records : List UInt8 :=
  BinaryHeader.codec.encode model.header ++
    (BinarySystemDef.codec.encode parts.rsys ++
      (BinaryDispatcherDef.codec.encodeAll parts.rds ++ BinaryActorDef.codec.encodeAll parts.ras))

/-- The file up to the string table. -/
def front : List UInt8 :=
  parts.records ++ BinaryKeyValue.codec.encodeAll parts.tail

theorem records_length : parts.records.length =
    (model.dispatchersWritten.buf ++ BinaryActorDef.codec.encodeAll parts.ras).length := by
  simp only [records, parts.dispatchersBuf, parts.systemBuf,
    length_append, encode_length, Nat.add_assoc]

theorem front_length : parts.front.length = model.actorsWritten.buf.length := by
  rw [front, parts.actorsBuf, ← append_assoc, length_append, records_length, ← length_append]

theorem serializeTopology_eq_front : serializeTopology model =
    parts.front ++ model.actorsWritten.strings.cells := by
  rw [serializeTopology, finalize, parts.actorsBuf, parts.dispatchersBuf, parts.systemBuf]
  simp only [append_assoc, patchHeader_encode, front, records]
  rfl

/-- The arguments of the last actor are read from behind the array. -/
theorem readArray_tail (cells : List UInt8) :
    BinaryKeyValue.codec.readArray (parts.front ++ cells)
      (model.dispatchersWritten.buf ++
        BinaryActorDef.codec.encodeAll parts.ras).length parts.tail.length = some parts.tail := by
  rw [← parts.records_length, front, append_assoc]
  exact readArray_append _ _ _ _

theorem layout : serializeTopology model = codec.encode model.header ++
    (BinarySystemDef.codec.encode parts.rsys ++ (BinaryDispatcherDef.codec.encodeAll parts.rds ++
      (BinaryActorDef.codec.encodeAll parts.ras ++
        (BinaryKeyValue.codec.encodeAll parts.tail ++ model.actorsWritten.strings.cells)))) := by
  rw [parts.serializeTopology_eq_front]
  simp only [front, records, append_assoc]

theorem readAt_system : BinarySystemDef.codec.readAt (serializeTopology model)
    model.header.systemOffset.toNat = some parts.rsys := by
  have hoffset : model.header.systemOffset.toNat = codec.size := rfl
  rw [parts.layout, hoffset, ← codec.encode_length model.header]
  exact BinarySystemDef.codec.readAt_append _ _ parts.rsys

theorem readArray_dispatchers (hlt : model.systemWritten.2.buf.length < 2 ^ 32) :
    BinaryDispatcherDef.codec.readArray (serializeTopology model)
      model.header.dispatchersOffset.toNat parts.rds.length = some parts.rds := by
  have hoffset : model.header.dispatchersOffset.toNat = (codec.encode model.header ++
      BinarySystemDef.codec.encode parts.rsys).length := by
    refine (currentOffset_toNat hlt).trans ?_
    simp only [parts.systemBuf, length_append, encode_length]
  rw [parts.layout, hoffset, ← append_assoc]
  exact BinaryDispatcherDef.codec.readArray_append _ _ parts.rds

theorem readArray_actors (hlt : model.dispatchersWritten.buf.length < 2 ^ 32) :
    BinaryActorDef.codec.readArray (serializeTopology model)
      model.header.actorsOffset.toNat parts.ras.length = some parts.ras := by
  have hoffset : model.header.actorsOffset.toNat = (codec.encode model.header ++
      BinarySystemDef.codec.encode parts.rsys ++
        BinaryDispatcherDef.codec.encodeAll parts.rds).length := by
    refine (currentOffset_toNat hlt).trans ?_
    simp only [parts.dispatchersBuf, parts.systemBuf, length_append, encode_length]
  rw [parts.layout, hoffset, ← append_assoc, ← append_assoc]
  exact BinaryActorDef.codec.readArray_append _ _ parts.ras

/-- The loader finds the parts where the header says. -/
theorem load_eq (parts : Parts model) (hfit : model.TablesFit) :
    loadBinaryTopology (serializeTopology model) = .ok model := by
  obtain ⟨hbytes, hcells, hdispatchers, hactors, -, -⟩ := hfit
  have htail : (model.dispatchersWritten.buf ++
      BinaryActorDef.codec.encodeAll parts.ras).length < 2 ^ 32 := by
    rw [parts.actorsBuf, ← append_assoc, length_append] at hbytes
    omega
  have hactors_lt : model.dispatchersWritten.buf.length < 2 ^ 32 := by
    rw [length_append] at htail
    omega
  have hdispatchers_lt : model.systemWritten.2.buf.length < 2 ^ 32 := by
    rw [parts.dispatchersBuf, length_append] at hactors_lt
    omega
  have hstring : model.header.stringTableOffset.toNat = parts.front.length := by
    rw [parts.front_length]
    exact currentOffset_toNat hbytes
  have hdispatcherCount : model.header.dispatcherCount.toNat = parts.rds.length := by
    rw [parts.dispatchersLoad.length_eq]
    exact UInt32.toNat_ofNat_of_lt' hdispatchers
  have hactorCount : model.header.actorCount.toNat = parts.ras.length := by
    rw [parts.rasLength]
    exact UInt32.toNat_ofNat_of_lt' hactors
  have hsystem := parts.systemLoads parts.front _ prefix_rfl hcells
  have hloads := mapM_loads parts.dispatchersLoad parts.front prefix_rfl hcells
  have hactorsLoad := parts.actorsLoad parts.front _ prefix_rfl hcells fun _ =>
    ⟨htail, parts.readArray_tail _⟩
  rw [← hstring, ← parts.serializeTopology_eq_front] at hsystem hloads hactorsLoad
  have hheader : codec.readAt (serializeTopology model) 0 = some model.header := by
    rw [parts.layout, ← nil_append (codec.encode model.header ++ _)]
    exact codec.readAt_append [] _ model.header
  have hrsys := parts.readAt_system
  have hrds := parts.readArray_dispatchers hdispatchers_lt
  have hras := parts.readArray_actors hactors_lt
  have hmodel : loadModel (serializeTopology model) model.header = some model := by
    simp only [loadModel, hrsys, hsystem, hdispatcherCount, hrds, hloads, hactorCount, hras,
      hactorsLoad, bind_eq_bind, bind_some]
  have hne : serializeTopology model ≠ [] := by
    intro hnil
    rw [parts.layout] at hnil
    have hlength := congrArg List.length (append_eq_nil_iff.mp hnil).1
    rw [codec.encode_length] at hlength
    exact absurd hlength (by decide)
  have hmagic : model.header.magic = topologyBinaryMagic := rfl
  simp only [loadBinaryTopology, if_neg hne, hheader, hmagic, ne_eq, not_true_eq_false, if_false,
    hmodel]

end Parts

end TopologyModel

/-- No file holds another interval. -/
theorem intervalFits_of_load {bytes : List UInt8} {model : TopologyModel}
    (hload : loadBinaryTopology bytes = .ok model) : model.IntervalFits := by
  simp only [loadBinaryTopology] at hload
  split_ifs at hload
  split at hload
  · cases hload
  split_ifs at hload
  split at hload
  · cases hload
  next hmodel =>
    obtain rfl := Except.ok.inj hload
    simp only [loadModel, loadSystem, bind_eq_bind, bind_eq_some_iff, Option.some.injEq] at hmodel
    obtain ⟨rsys, -, system, ⟨_, -, _, -, _, -, _, -, _, -, rfl⟩, _, -, _, -, _, -, _, -, rfl⟩ :=
      hmodel
    exact ⟨Int.natCast_nonneg _, Int.ofNat_lt.mpr rsys.tracingExportIntervalMs.toNat_lt⟩

/-- A topology whose records are contiguous is loaded as it was serialized,
unless its export interval does not fit.  Where the records are not contiguous
the loader reads other bytes in their place. -/
theorem load_serialize (model : TopologyModel) (hnul : model.NulFree) (hfit : model.TablesFit)
    (hcontiguous : model.Contiguous) :
    loadBinaryTopology (serializeTopology model) = .ok model ↔ model.IntervalFits :=
  ⟨intervalFits_of_load, fun hinterval =>
    (TopologyModel.nonempty_parts hnul hfit hcontiguous hinterval).elim fun parts =>
      parts.load_eq hfit⟩

namespace TopologyWitness

def tracing : TraceConfig where
  enabled := true
  propagateUnsampled := true
  ringBufferCapacity := 65536
  serviceName := [104, 112]
  sampler := .parentBasedTraceIdRatio
  sampleRatio := 0x3f847ae147ae147b
  exporter := .otlpHttp
  otlpEndpoint := [111]
  jsonFilePath := []
  exportInterval := 500
  maxExportBatchSize := 512
  maxTracestateLen := 256

def system : SystemDef where
  version := [49]
  schedulerThreads := 4
  maxQueueDepth := 1024
  enableNetwork := false
  tcpPort := 0
  spawnTimeoutMs := 5000
  enableHttpGateway := false
  httpPort := 8080
  httpBindHost := [104]
  httpMaxConnections := 1000
  httpMaxRequestSize := 1048576
  httpReplyTimeoutMs := 5000
  defaultMailboxSize := 1024
  useCoroutines := false
  tracing

def dispatcher (cpuAffinity : List UInt8) : DispatcherDef :=
  ⟨[100], 2, cpuAffinity⟩

def actor (id : Text) (args : ArgMap) : ActorDef :=
  { id, behavior := [98], supervisor := [], dispatcher := [100]
    dispatchPolicy := .dedicatedThread, mailboxCapacity := 16
    resources := ⟨0, 0⟩, args }

def oneArg : ArgMap := ⟨[([107], [118])], by decide⟩

/-- One argument, of the last actor. -/
def plain : TopologyModel :=
  ⟨system, [dispatcher [], dispatcher []], [actor [97] .empty, actor [99] oneArg]⟩

theorem plain_loads : loadBinaryTopology (serializeTopology plain) = .ok plain :=
  (load_serialize plain (by decide +kernel) (by decide +kernel)
    (by decide +kernel)).mpr (by decide +kernel)

def reload (model : TopologyModel) : Option TopologyModel :=
  (loadBinaryTopology (serializeTopology model)).toOption

/-- Twelve affinities, which the loader takes for the dispatcher's record. -/
def pinned : TopologyModel :=
  ⟨system, [dispatcher (List.replicate 12 0)], []⟩

/-- Affinities that happen to be the bytes of the dispatcher's record are read
as that record. -/
def mirrored : TopologyModel :=
  ⟨system, [dispatcher [10, 0, 0, 0, 2, 0, 12, 0, 156, 0, 0, 0]], []⟩

example : (reload mirrored).map TopologyModel.dispatchers = some mirrored.dispatchers := by
  decide +kernel

/-- An argument of the first of two actors. -/
def earlyArg : TopologyModel :=
  ⟨system, [], [actor [97] oneArg, actor [99] .empty]⟩

/-- An export interval of `2 ^ 32` milliseconds. -/
def rareExport : TopologyModel :=
  ⟨{ system with tracing := { tracing with exportInterval := 2 ^ 32 } }, [], []⟩

/-- The dispatcher comes back without a name, threads and affinities, the
second actor under the name of the first actor's argument, and the interval as
zero. -/
theorem records_displaced :
    (pinned.NulFree ∧ pinned.TablesFit ∧
      (reload pinned).map TopologyModel.dispatchers = some [⟨[], 0, []⟩]) ∧
    (earlyArg.NulFree ∧ earlyArg.TablesFit ∧
      (reload earlyArg).map (fun model => model.actors.map ActorDef.id) = some [[97], [107]]) ∧
    rareExport.NulFree ∧ rareExport.TablesFit ∧
      (reload rareExport).map (fun model => model.system.tracing.exportInterval) = some 0 := by
  decide +kernel

end TopologyWitness

end HPActor
