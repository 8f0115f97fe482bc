/-
The names of a directory and what it has announced through its port.  Publishing,
`register_name` and `erase` make the port call that matches the change;
`register_names_atomically` and `unregister_name` make none, so the announced
names stay those of the directory exactly until one of them changes a name.
-/
import HPActor.ActorDirectory

namespace HPActor.ActorDirectory

open Machines

inductive Call where
  | publish (entry : ActorDirectoryEntry) (name : Option String)
  | registerName (name : String) (address : ActorAddress)
  | registerNamesAtomically (batch : List NamedActor)
  | unregisterName (name : String)
  | erase (id : UInt64)

def apply (d : ActorDirectory) : Call → ActorDirectory
  | .publish entry name => (d.publish entry name).2
  | .registerName name address => (d.registerName name address).2
  | .registerNamesAtomically batch => (d.registerNamesAtomically batch).2
  | .unregisterName name => (d.unregisterName name).2
  | .erase id => (d.erase id).2

/-- The name was announced, and not withdrawn since. -/
def Announced (calls : List PortCall) (name : String) : Prop :=
  calls.foldl
    (fun announced call =>
      match call with
      | .register other _ _ => if other = name then True else announced
      | .unregister other => if other = name then False else announced)
    False

/-- The announced names are the bound names. -/
def Agrees (d : ActorDirectory) : Prop :=
  ∀ name, Announced d.portCalls name ↔ name ∈ d.names

/-- The call changes no name behind the port's back. -/
def Told (d : ActorDirectory) : Call → Prop
  | .registerNamesAtomically batch => batch = [] ∨ ∃ item ∈ batch, d.Refused item
  | .unregisterName name => name ∉ d.names
  | _ => True

variable {d : ActorDirectory} {address : ActorAddress} {name : String} {calls : List PortCall}

theorem announced_register {other : String} {generation : UInt64} :
    Announced (calls ++ [.register other address generation]) name ↔
      name = other ∨ Announced calls name := by
  rw [Announced, List.foldl_append]
  by_cases heq : other = name
  · simp [heq]
  · simp [heq, Announced, Ne.symm heq]

/-- Withdrawing a list of names. -/
theorem announced_unregister {withdrawn : List String} :
    Announced (calls ++ withdrawn.map .unregister) name ↔
      Announced calls name ∧ name ∉ withdrawn := by
  induction withdrawn generalizing calls with
  | nil => simp
  | cons other rest ih =>
    have hone : Announced (calls ++ [.unregister other]) name ↔
        Announced calls name ∧ name ≠ other := by
      rw [Announced, List.foldl_append]
      by_cases heq : other = name
      · simp [heq]
      · simp [heq, Announced, Ne.symm heq]
    have hsplit : calls ++ (other :: rest).map PortCall.unregister =
        calls ++ [.unregister other] ++ rest.map .unregister := by simp
    rw [hsplit, ih, hone, List.mem_cons, not_or, and_assoc]

section

variable (h : d.Agrees) (hport : d.nameRegPort.onRegister = true)
include h hport

theorem Agrees.announce {entries : AList fun _ : UInt64 => ActorDirectoryEntry} :
        (ActorDirectory.announce
      { d with entries, names := emplace d.names name address }
      name address).Agrees := by
  intro other
  have hcalls := announce_portCalls (d := { d with entries, names := emplace d.names name address })
    hport name address
  rw [hcalls, announced_register, announce_names, mem_emplace, h other]

theorem Agrees.publish {entry : ActorDirectoryEntry} {name : Option String} :
    (d.publish entry name).2.Agrees := by
  unfold ActorDirectory.publish
  split
  · exact h
  · cases name with
    | none => exact h
    | some name =>
      dsimp only
      split
      · exact h
      · exact h.announce hport

theorem Agrees.registerName : (d.registerName name address).2.Agrees := by
  unfold ActorDirectory.registerName
  split
  · exact h
  · exact h.announce hport

end

theorem Agrees.erase {id : UInt64} (h : d.Agrees)
    (hport : d.nameRegPort.onUnregister = true) : (d.erase id).2.Agrees := by
  intro name
  have hcalls : (d.erase id).2.portCalls = d.portCalls ++ (d.namesOf id).map .unregister := by
    simp [ActorDirectory.erase, hport]
  rw [hcalls, announced_unregister, mem_erase_names, h name]

/-- A batch that goes through binds names nobody hears of. -/
theorem agrees_registerNamesAtomically_iff {batch : List NamedActor} (h : d.Agrees) :
    (d.registerNamesAtomically batch).2.Agrees ↔
      batch = [] ∨ ∃ item ∈ batch, d.Refused item := by
  unfold registerNamesAtomically
  split
  · next hrefused => exact ⟨fun _ => .inr hrefused, fun _ => h⟩
  · next haccepted =>
      rw [or_iff_left haccepted]
      push Not at haccepted
      have hfree : ∀ item ∈ batch, item.name ∉ d.names ∧ item.actor ∈ d.entries := by
        intro item hitem
        have hnot := haccepted item hitem
        unfold Refused at hnot
        push Not at hnot
        exact hnot
      constructor
      · intro hagrees
        refine List.eq_nil_iff_forall_not_mem.mpr fun item hitem => ?_
        have hcalls : (batch.foldl bindName d).portCalls = d.portCalls :=
          Runs.foldl_keeps portCalls bindName bindName_portCalls batch d
        have hbound : item.name ∈ (batch.foldl bindName d).names :=
          (mem_foldl_bindName fun item hitem => (hfree item hitem).2).mpr (.inl ⟨item, hitem, rfl⟩)
        rw [← hagrees item.name, hcalls, h item.name] at hbound
        exact (hfree item hitem).1 hbound
      · rintro rfl
        exact h

/-- A name that is taken away stays announced. -/
theorem agrees_unregisterName_iff (h : d.Agrees) :
    (d.unregisterName name).2.Agrees ↔ name ∉ d.names := by
  constructor
  · intro hagrees hbound
    have hstill : name ∈ (d.unregisterName name).2.names :=
      (hagrees name).mp ((h name).mpr hbound)
    exact (AList.mem_erase.mp hstill).1 rfl
  · intro hfree other
    rw [show (d.unregisterName name).2.portCalls = d.portCalls from rfl, h other]
    refine ⟨fun hbound => AList.mem_erase.mpr ⟨?_, hbound⟩,
      fun hbound => (AList.mem_erase.mp hbound).2⟩
    rintro rfl
    exact hfree hbound

/-- One call keeps the agreement exactly if it tells the port. -/
theorem agrees_apply_iff (h : d.Agrees) (hport : d.nameRegPort.active = true)
    (call : Call) : (d.apply call).Agrees ↔ d.Told call := by
  obtain ⟨hregister, hunregister⟩ := Bool.and_eq_true_iff.mp hport
  cases call with
  | publish entry name => exact iff_of_true (h.publish hregister) trivial
  | registerName name address =>
    exact iff_of_true (h.registerName hregister) trivial
  | registerNamesAtomically batch => exact agrees_registerNamesAtomically_iff h
  | unregisterName name => exact agrees_unregisterName_iff h
  | erase id => exact iff_of_true (h.erase hunregister) trivial

theorem apply_port (d : ActorDirectory) (call : Call) :
    (d.apply call).nameRegPort = d.nameRegPort := by
  cases call with
  | publish entry name =>
    simp only [apply, publish]
    split
    · rfl
    · cases name with
      | none => rfl
      | some name =>
        dsimp only
        split
        · rfl
        · exact announce_port _ _ _
  | registerName name address =>
    simp only [apply, registerName]
    split
    · rfl
    · exact announce_port _ _ _
  | registerNamesAtomically batch =>
    simp only [apply, registerNamesAtomically]
    split
    · rfl
    · exact Runs.foldl_keeps nameRegPort bindName bindName_port batch d
  | unregisterName name | erase id => rfl

/-- A new directory with both callbacks installed. -/
def withPort : ActorDirectory :=
  { nameRegPort := { onRegister := true, onUnregister := true } }

/-- The announced names are the bound ones after every call of a run, exactly if
no call of the run takes a bound name away or is a batch of names none of which
is refused. -/
theorem agrees_throughout_iff (calls : List Call) :
    (∀ front, front <+: calls → (final apply withPort front).Agrees) ↔
      Along apply Told withPort calls := by
  have hstep : ∀ (d : ActorDirectory) (call : Call), d.nameRegPort.active = true ∧ d.Agrees →
        ((d.apply call).nameRegPort.active = true ∧ (d.apply call).Agrees ↔ d.Told call) := by
    rintro d call ⟨hport, hagrees⟩
    rw [apply_port, agrees_apply_iff hagrees hport call]
    exact and_iff_right hport
  have hinit : withPort.nameRegPort.active = true ∧ withPort.Agrees :=
    ⟨rfl, fun name => ⟨False.elim, AList.notMem_empty name⟩⟩
  rw [← throughout_iff hstep hinit]
  refine forall_congr' fun front => imp_congr_right fun _ => ?_
  have hport : (final apply withPort front).nameRegPort.active = true := by
    have hsame := Runs.foldl_keeps nameRegPort apply apply_port front withPort
    exact congrArg NameRegistrationPort.active hsame
  exact (and_iff_right hport).symm

namespace AnnouncementWitness

def echo : ActorAddress := { id := 7 }

def batched : ActorDirectory :=
  final apply withPort [.publish ⟨echo⟩ none, .registerNamesAtomically [⟨"echo", 7⟩]]

def unregistered : ActorDirectory :=
  final apply withPort [.registerName "echo" echo, .unregisterName "echo"]

/-- A batch binds a name that is never announced; a name that is unregistered
stays announced. -/
theorem untold_names :
    (batched.names.keys = ["echo"] ∧ batched.portCalls = [] ∧ ¬ batched.Agrees) ∧
    (unregistered.names.keys = [] ∧ unregistered.portCalls = [.register "echo" echo 0] ∧
      ¬ unregistered.Agrees) := by
  refine ⟨⟨by decide, by decide, fun hagrees => ?_⟩, ⟨by decide, by decide, fun hagrees => ?_⟩⟩
  · have hbound : "echo" ∈ batched.names := by decide
    exact (hagrees "echo").mpr hbound
  · have hannounced : Announced unregistered.portCalls "echo" := trivial
    have hbound : "echo" ∉ unregistered.names := by decide
    exact hbound ((hagrees "echo").mp hannounced)

end AnnouncementWitness

end HPActor.ActorDirectory
