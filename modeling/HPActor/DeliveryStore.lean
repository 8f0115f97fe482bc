/-
The two stores behind durable delivery.  The in-memory store is a pair of maps.
The file store keeps an outbox with a message id on each line, which is copied
and renamed on every change, and an inbox to which lines of an id and an expiry
are only ever appended; it has no state besides its files.

Reading an inbox stops at the first line of an id, so a second line for the
same id has no effect, while the map takes the newer expiry; and completing a
delivery fails as long as there is no outbox file.
-/
import HPActor.Message
import HPActor.HexText
import HPActor.Runs

namespace HPActor

open HexText Function List

/-- What the store keeps of a message. -/
structure PendingSend where
  messageId : UInt64

structure InMemoryDeliveryStore where
  outbox : List PendingSend := []
  inbox : UInt64 → Option UInt64 := fun _ => none

namespace InMemoryDeliveryStore

variable (m : InMemoryDeliveryStore)

def eraseOutbox (id : UInt64) : List PendingSend :=
  m.outbox.filter fun record => decide (record.messageId ≠ id)

def putOutbox (record : PendingSend) : InMemoryDeliveryStore × Except UInt32 Unit :=
  ({ m with outbox := record :: m.eraseOutbox record.messageId }, .ok ())

def markOutboxComplete (id : UInt64) : InMemoryDeliveryStore × Except UInt32 Unit :=
  ({ m with outbox := m.eraseOutbox id }, .ok ())

def loadPendingOutbox : List PendingSend :=
  m.outbox

def putInbox (now id ttlNs : UInt64) : InMemoryDeliveryStore × Except UInt32 Unit :=
  ({ m with inbox := update m.inbox id (some (now + ttlNs)) }, .ok ())

/-- An id that has expired is forgotten. -/
def seenInbox (now id : UInt64) : InMemoryDeliveryStore × Bool :=
  match m.inbox id with
  | none => (m, false)
  | some expiry =>
    if expiry < now then
      ({ m with inbox := update m.inbox id none }, false)
    else (m, true)

end InMemoryDeliveryStore

/-- The files under the root directory, as far as they exist. -/
structure FileDeliveryStore where
  outbox : Option (List Char) := none
  outboxTmp : Option (List Char) := none
  inbox : Option (List Char) := none

namespace FileDeliveryStore

def idLine (id : UInt64) : List Char := numeral id.toNat

def inboxLine (id expiry : UInt64) : List Char :=
  numeral id.toNat ++ ' ' :: numeral expiry.toNat

/-- A line of the outbox is an id and nothing else. -/
def parseId (line : List Char) : Option UInt64 :=
  match readNumeral line with
  | some (mid, []) => some (UInt64.ofNat mid)
  | _ => none

/-- Two numbers taken out of a string stream.  The store writes no other
lines. -/
def parseInbox (line : List Char) : Option (UInt64 × UInt64) :=
  (readNumeral line).bind fun mid =>
    (readNumeral mid.2).map fun expiry =>
      (UInt64.ofNat mid.1, UInt64.ofNat expiry.1)

variable (f : FileDeliveryStore)

/-- The old lines are copied to the temporary file, which is opened for
appending and may be left over from a failed call. -/
def putOutbox (record : PendingSend) : FileDeliveryStore × Except UInt32 Unit :=
  let tmp :=
    match f.outbox with
    | some text => text
    | none => f.outboxTmp.getD []
  ({ f with
      outbox := some (tmp ++ (idLine record.messageId ++ ['\n']))
      outboxTmp := none }, .ok ())

def markOutboxComplete (id : UInt64) : FileDeliveryStore × Except UInt32 Unit :=
  match f.outbox with
  | none =>
    -- the temporary file was opened before the test
    ({ f with outboxTmp := some [] }, .error FailureReason.passivationSnapshotFailed.code)
  | some text =>
    let kept := (lines text).filter fun line =>
      match parseId line with
      | none => false
      | some mid => decide (mid ≠ id)
    ({ f with outbox := some (unlines kept), outboxTmp := none }, .ok ())

def loadPendingOutbox : List PendingSend :=
  match f.outbox with
  | none => []
  | some text => ((lines text).filterMap parseId).map PendingSend.mk

def putInbox (now id ttlNs : UInt64) : FileDeliveryStore × Except UInt32 Unit :=
  ({ f with
      inbox := some (f.inbox.getD [] ++ (inboxLine id (now + ttlNs) ++ ['\n'])) },
    .ok ())

/-- The expiry on the first line of an id. -/
def findInbox (id : UInt64) : List (List Char) → Option UInt64
  | [] => none
  | line :: rest =>
    match parseInbox line with
    | none => findInbox id rest
    | some (mid, expiry) => if mid = id then some expiry else findInbox id rest

def inboxExpiry (id : UInt64) : Option UInt64 :=
  f.inbox.bind fun text => findInbox id (lines text)

def seenInbox (now id : UInt64) : Bool :=
  match f.inboxExpiry id with
  | none => false
  | some expiry => decide (now ≤ expiry)

/-- The constructor only makes sure that the directory exists. -/
def reopen : FileDeliveryStore := f

end FileDeliveryStore

/-- What a call of a store answers. -/
inductive StoreAnswer where
  | done (result : Except UInt32 Unit)
  | pending (items : List PendingSend)
  | seen (found : Bool)

/-- Pending lists are compared as sets. -/
def StoreAnswer.Same : StoreAnswer → StoreAnswer → Prop
  | .done result, .done result' => result = result'
  | .pending items, .pending items' => ∀ record, record ∈ items ↔ record ∈ items'
  | .seen found, .seen found' => found = found'
  | _, _ => False

/-- Both stores, the last clock reading, and what they have answered. -/
structure StorePair where
  file : FileDeliveryStore := {}
  memory : InMemoryDeliveryStore := {}
  clock : UInt64 := 0
  answers : List (StoreAnswer × StoreAnswer) := []

namespace StorePair

inductive Call where
  | putOutbox (record : PendingSend)
  | markOutboxComplete (id : UInt64)
  | loadPendingOutbox
  | putInbox (id ttlNs : UInt64)
  | seenInbox (id : UInt64)
  | reopen

variable (s : StorePair)

def tick (now : UInt64) : StorePair :=
  { s with clock := now }

def answer (file : FileDeliveryStore × StoreAnswer)
    (memory : InMemoryDeliveryStore × StoreAnswer) : StorePair :=
  { s with
    file := file.1, memory := memory.1
    answers := s.answers ++ [(file.2, memory.2)] }

def done {S : Type} (result : S × Except UInt32 Unit) : S × StoreAnswer :=
  (result.1, .done result.2)

/-- The same call of both stores at the same reading of the clock. -/
def call : Call → StorePair
  | .putOutbox record =>
    s.answer (done (s.file.putOutbox record)) (done (s.memory.putOutbox record))
  | .markOutboxComplete id =>
    s.answer (done (s.file.markOutboxComplete id)) (done (s.memory.markOutboxComplete id))
  | .loadPendingOutbox =>
    s.answer (s.file, .pending s.file.loadPendingOutbox)
      (s.memory, .pending s.memory.loadPendingOutbox)
  | .putInbox id ttlNs =>
    s.answer (done (s.file.putInbox s.clock id ttlNs)) (done (s.memory.putInbox s.clock id ttlNs))
  | .seenInbox id =>
    s.answer (s.file, .seen (s.file.seenInbox s.clock id))
      ((s.memory.seenInbox s.clock id).1, .seen (s.memory.seenInbox s.clock id).2)
  | .reopen => { s with file := s.file.reopen }

/-- The clock never goes back. -/
def step (action : UInt64 × Call) : Option StorePair :=
  if s.clock ≤ action.1 then some ((s.tick action.1).call action.2) else none

/-- No delivery is completed before there is an outbox, and no id comes into
the inbox twice. -/
def Orderly (action : UInt64 × Call) : Prop :=
  match action.2 with
  | .markOutboxComplete _ => s.file.outbox.isSome
  | .putInbox id _ => s.file.inboxExpiry id = none
  | _ => True

instance (s : StorePair) (action : UInt64 × Call) : Decidable (s.Orderly action) := by
  unfold Orderly
  split <;> infer_instance

end StorePair

namespace FileDeliveryStore

theorem parseId_idLine (id : UInt64) : parseId (idLine id) = some id := by
  rw [parseId, idLine, readNumeral_numeral_nil id.toNat_lt]
  exact congrArg some UInt64.ofNat_toNat

theorem parseInbox_inboxLine (id expiry : UInt64) :
    parseInbox (inboxLine id expiry) = some (id, expiry) := by
  have hstops : Stops (' ' :: numeral expiry.toNat) := by
    intro c hc
    cases hc
    decide
  have hblank : readNumeral (' ' :: numeral expiry.toNat) =
      readNumeral (numeral expiry.toNat) := rfl
  rw [parseInbox, inboxLine, readNumeral_numeral id.toNat_lt hstops,
    Option.bind_some, hblank, readNumeral_numeral_nil expiry.toNat_lt]
  exact congrArg some (Prod.ext UInt64.ofNat_toNat UInt64.ofNat_toNat)

theorem newline_not_mem_inboxLine (id expiry : UInt64) : '\n' ∉ inboxLine id expiry := by
  rw [inboxLine, mem_append, mem_cons, not_or, not_or]
  exact ⟨newline_not_mem_numeral _, by decide, newline_not_mem_numeral _⟩

theorem loadPendingOutbox_eq (f : FileDeliveryStore) :
    f.loadPendingOutbox = ((lines (f.outbox.getD [])).filterMap parseId).map PendingSend.mk := by
  rw [loadPendingOutbox]
  cases f.outbox with
  | none => rfl
  | some text => rfl

theorem inboxExpiry_eq (f : FileDeliveryStore) (id : UInt64) :
    f.inboxExpiry id = findInbox id (lines (f.inbox.getD [])) := by
  rw [inboxExpiry]
  cases f.inbox with
  | none => rfl
  | some text => rfl

/-- A line at the end counts for an id that has none yet. -/
theorem findInbox_append (id mid expiry : UInt64) (texts : List (List Char)) :
    findInbox id (texts ++ [inboxLine mid expiry]) =
      (findInbox id texts).or (if mid = id then some expiry else none) := by
  induction texts with
  | nil =>
    simp only [nil_append, findInbox, parseInbox_inboxLine, Option.none_or]
  | cons line texts ih =>
    rw [cons_append, findInbox, findInbox]
    cases parseInbox line with
    | none => exact ih
    | some entry =>
      by_cases hid : entry.1 = id
      · simp only [if_pos hid, Option.some_or]
      · simp only [if_neg hid]
        exact ih

variable {f : FileDeliveryStore}

theorem putInbox_expiry (hlined : Lined (f.inbox.getD [])) (now mid ttlNs id : UInt64) :
    (f.putInbox now mid ttlNs).1.inboxExpiry id =
      (f.inboxExpiry id).or (if mid = id then some (now + ttlNs) else none) := by
  have hlines := (hlined.append (newline_not_mem_inboxLine mid (now + ttlNs))).2
  rw [inboxExpiry_eq, inboxExpiry_eq, ← findInbox_append]
  exact congrArg (findInbox id) hlines

theorem putOutbox_load (htmp : f.outboxTmp = none)
    (hlined : Lined (f.outbox.getD [])) (record : PendingSend) :
    Lined ((f.putOutbox record).1.outbox.getD []) ∧ (f.putOutbox record).1.loadPendingOutbox =
        f.loadPendingOutbox ++ [record] := by
  have htext : (f.putOutbox record).1.outbox.getD [] =
      f.outbox.getD [] ++ (idLine record.messageId ++ ['\n']) := by
    rw [putOutbox]
    cases hout : f.outbox with
    | none => simp only [htmp, Option.getD_none, Option.getD_some]
    | some text => rfl
  obtain ⟨hnew, hlines⟩ := hlined.append (newline_not_mem_numeral record.messageId.toNat)
  refine ⟨by rw [htext]; exact hnew, ?_⟩
  rw [loadPendingOutbox_eq, loadPendingOutbox_eq, htext]
  change ((lines (_ ++ (numeral _ ++ ['\n']))).filterMap parseId).map _ = _
  rw [hlines, filterMap_append, map_append]
  change _ ++ ([idLine record.messageId].filterMap parseId).map _ = _
  rw [filterMap_cons_some (parseId_idLine _)]
  rfl

theorem markOutboxComplete_load (hsome : f.outbox.isSome)
    (hlined : Lined (f.outbox.getD [])) (id : UInt64) :
    Lined ((f.markOutboxComplete id).1.outbox.getD []) ∧
      ∀ record, record ∈ (f.markOutboxComplete id).1.loadPendingOutbox ↔
        record ∈ f.loadPendingOutbox ∧ record.messageId ≠ id := by
  obtain ⟨text, htext⟩ := Option.isSome_iff_exists.mp hsome
  rw [htext] at hlined
  rw [markOutboxComplete, htext]
  have hclean : ∀ line ∈ (lines text).filter (fun line =>
      match parseId line with
      | none => false
      | some mid => decide (mid ≠ id)), '\n' ∉ line := fun line hline =>
    hlined.newline_not_mem line (mem_of_mem_filter hline)
  refine ⟨⟨_, hclean, rfl⟩, ?_⟩
  rintro ⟨mid⟩
  simp only [loadPendingOutbox, htext, lines_unlines hclean, mem_map, mem_filterMap, mem_filter,
    PendingSend.mk.injEq, exists_eq_right]
  constructor
  · rintro ⟨line, ⟨hline, hkept⟩, hparse⟩
    rw [hparse] at hkept
    exact ⟨⟨line, hline, hparse⟩, of_decide_eq_true hkept⟩
  · rintro ⟨⟨line, hline, hparse⟩, hne⟩
    refine ⟨line, ⟨hline, ?_⟩, hparse⟩
    rw [hparse]
    exact decide_eq_true hne

end FileDeliveryStore

namespace StorePair

/-- The files say what the maps say.  An id that the map has forgotten is
expired in the file. -/
structure Mirrors (s : StorePair) : Prop where
  noTmp : s.file.outboxTmp = none
  outboxLined : Lined (s.file.outbox.getD [])
  inboxLined : Lined (s.file.inbox.getD [])
  outbox : ∀ record, record ∈ s.file.loadPendingOutbox ↔ record ∈ s.memory.outbox
  inbox : ∀ id, s.memory.inbox id = s.file.inboxExpiry id ∨ s.memory.inbox id = none ∧
      ∃ expiry, s.file.inboxExpiry id = some expiry ∧ expiry < s.clock
  same : ∀ answers ∈ s.answers, answers.1.Same answers.2

variable {s : StorePair}

theorem mirrors_empty : Mirrors {} where
  noTmp := rfl
  outboxLined := lined_nil
  inboxLined := lined_nil
  outbox := fun _ => Iff.rfl
  inbox := fun _ => .inl rfl
  same := fun _ hanswer => (not_mem_nil hanswer).elim

theorem Mirrors.tick (hs : s.Mirrors) {now : UInt64} (hnow : s.clock ≤ now) :
    (s.tick now).Mirrors :=
  { hs with
    inbox := by
      intro id
      rcases hs.inbox id with heq | ⟨hnone, expiry, hexpiry, hlt⟩
      · exact .inl heq
      · exact .inr ⟨hnone, expiry, hexpiry, UInt64.lt_of_lt_of_le hlt hnow⟩ }

theorem same_append {s : StorePair} (hsame : ∀ answers ∈ s.answers, answers.1.Same answers.2)
    {file memory : StoreAnswer} (hnew : file.Same memory) :
    ∀ answers ∈ s.answers ++ [(file, memory)], answers.1.Same answers.2 := by
  exact forall_mem_append.mpr ⟨hsame, forall_mem_singleton.mpr hnew⟩

section

variable (hs : s.Mirrors)
include hs

open FileDeliveryStore

theorem Mirrors.putOutbox (record : PendingSend) : (s.call (.putOutbox record)).Mirrors := by
  obtain ⟨hlined, hload⟩ :=
    putOutbox_load hs.noTmp hs.outboxLined record
  exact
    { noTmp := rfl
      outboxLined := hlined
      inboxLined := hs.inboxLined
      outbox := by
        intro other
        change other ∈ (s.file.putOutbox record).1.loadPendingOutbox ↔
          other ∈ record :: s.memory.eraseOutbox record.messageId
        rw [hload, mem_append, mem_singleton, mem_cons, InMemoryDeliveryStore.eraseOutbox,
          mem_filter, hs.outbox other, decide_eq_true_iff]
        constructor
        · rintro (hold | hnew)
          · by_cases hid : other.messageId = record.messageId
            · obtain ⟨id⟩ := other
              obtain ⟨id'⟩ := record
              exact .inl (congrArg PendingSend.mk hid)
            · exact .inr ⟨hold, hid⟩
          · exact .inl hnew
        · rintro (hnew | hold)
          · exact .inr hnew
          · exact .inl hold.1
      inbox := hs.inbox
      same := same_append hs.same rfl }

theorem Mirrors.markOutboxComplete (hsome : s.file.outbox.isSome) (id : UInt64) :
        (s.call (.markOutboxComplete id)).Mirrors := by
  obtain ⟨hlined, hload⟩ :=
    FileDeliveryStore.markOutboxComplete_load hsome hs.outboxLined id
  obtain ⟨text, htext⟩ := Option.isSome_iff_exists.mp hsome
  have hfile : (s.file.markOutboxComplete id).1.outboxTmp = none ∧
      (s.file.markOutboxComplete id).1.inbox = s.file.inbox ∧
      (s.file.markOutboxComplete id).2 = .ok () := by
    rw [FileDeliveryStore.markOutboxComplete, htext]
    exact ⟨rfl, rfl, rfl⟩
  exact
    { noTmp := hfile.1
      outboxLined := hlined
      inboxLined := by
        change Lined ((s.file.markOutboxComplete id).1.inbox.getD [])
        rw [hfile.2.1]
        exact hs.inboxLined
      outbox := by
        intro record
        change record ∈ (s.file.markOutboxComplete id).1.loadPendingOutbox ↔
          record ∈ s.memory.eraseOutbox id
        rw [hload, hs.outbox, InMemoryDeliveryStore.eraseOutbox, mem_filter, decide_eq_true_iff]
      inbox := by
        intro other
        have hexpiry : (s.file.markOutboxComplete id).1.inboxExpiry other =
            s.file.inboxExpiry other := by
          rw [FileDeliveryStore.inboxExpiry, hfile.2.1]
          rfl
        change s.memory.inbox other = (s.file.markOutboxComplete id).1.inboxExpiry other ∨
          s.memory.inbox other = none ∧ ∃ expiry,
            (s.file.markOutboxComplete id).1.inboxExpiry other = some expiry ∧ expiry < s.clock
        rw [hexpiry]
        exact hs.inbox other
      same := same_append hs.same hfile.2.2 }

theorem Mirrors.putInbox {id : UInt64} (hnew : s.file.inboxExpiry id = none) (ttlNs : UInt64) :
    (s.call (.putInbox id ttlNs)).Mirrors where
  noTmp := hs.noTmp
  outboxLined := hs.outboxLined
  inboxLined := (hs.inboxLined.append (newline_not_mem_inboxLine id (s.clock + ttlNs))).1
  outbox := hs.outbox
  inbox := by
    intro other
    change update s.memory.inbox id (some (s.clock + ttlNs)) other =
        (s.file.putInbox s.clock id ttlNs).1.inboxExpiry other ∨
      update s.memory.inbox id (some (s.clock + ttlNs)) other = none ∧
        ∃ expiry, (s.file.putInbox s.clock id ttlNs).1.inboxExpiry other =
          some expiry ∧ expiry < s.clock
    rw [putInbox_expiry hs.inboxLined]
    by_cases hid : other = id
    · subst hid
      rw [update_self, hnew, if_pos rfl]
      exact .inl rfl
    · rw [update_of_ne hid, if_neg (Ne.symm hid), Option.or_none]
      exact hs.inbox other
  same := same_append hs.same rfl

/-- What the map knows of an id is what the file says of it. -/
theorem Mirrors.expiry {id expiry : UInt64} (hsome : s.memory.inbox id = some expiry) :
    s.file.inboxExpiry id = some expiry := by
  rcases hs.inbox id with heq | ⟨hnone, -⟩
  · rw [← heq, hsome]
  · rw [hsome] at hnone
    cases hnone

/-- The two stores see the same ids. -/
theorem Mirrors.seen_same (id : UInt64) :
    s.file.seenInbox s.clock id = (s.memory.seenInbox s.clock id).2 := by
  rw [seenInbox, InMemoryDeliveryStore.seenInbox]
  cases hmem : s.memory.inbox id with
  | none =>
    rcases hs.inbox id with heq | ⟨-, expiry, hexpiry, hlt⟩
    · rw [← heq, hmem]
    · rw [hexpiry]
      exact decide_eq_false (UInt64.not_le.mpr hlt)
  | some expiry =>
    rw [hs.expiry hmem]
    by_cases hlt : expiry < s.clock
    · simp only [if_pos hlt]
      exact decide_eq_false (UInt64.not_le.mpr hlt)
    · simp only [if_neg hlt]
      exact decide_eq_true (UInt64.not_lt.mp hlt)

/-- Forgetting an expired id leaves it expired in the file. -/
theorem Mirrors.seen_inbox (id other : UInt64) :
    (s.memory.seenInbox s.clock id).1.inbox other = s.file.inboxExpiry other ∨
      (s.memory.seenInbox s.clock id).1.inbox other = none ∧
        ∃ expiry, s.file.inboxExpiry other = some expiry ∧ expiry < s.clock := by
  rw [InMemoryDeliveryStore.seenInbox]
  cases hmem : s.memory.inbox id with
  | none => exact hs.inbox other
  | some expiry =>
    by_cases hlt : expiry < s.clock
    · simp only [if_pos hlt]
      by_cases hid : other = id
      · subst hid
        rw [update_self]
        exact .inr ⟨rfl, expiry, hs.expiry hmem, hlt⟩
      · rw [update_of_ne hid]
        exact hs.inbox other
    · simp only [if_neg hlt]
      exact hs.inbox other

end

theorem seenInbox_outbox (m : InMemoryDeliveryStore) (now id : UInt64) :
    (m.seenInbox now id).1.outbox = m.outbox := by
  rw [InMemoryDeliveryStore.seenInbox]
  cases m.inbox id with
  | none => rfl
  | some expiry =>
    by_cases hlt : expiry < now
    · simp only [if_pos hlt]
    · simp only [if_neg hlt]

theorem Mirrors.seenInbox (hs : s.Mirrors) (id : UInt64) : (s.call (.seenInbox id)).Mirrors where
  noTmp := hs.noTmp
  outboxLined := hs.outboxLined
  inboxLined := hs.inboxLined
  outbox := by
    intro record
    change _ ↔ record ∈ (s.memory.seenInbox s.clock id).1.outbox
    rw [seenInbox_outbox]
    exact hs.outbox record
  inbox := hs.seen_inbox id
  same := same_append hs.same (hs.seen_same id)

theorem Mirrors.step (hs : s.Mirrors) {action : UInt64 × Call}
    (horderly : s.Orderly action) {next : StorePair}
    (hstep : s.step action = some next) : next.Mirrors := by
  obtain ⟨now, c⟩ := action
  rw [StorePair.step] at hstep
  obtain ⟨hnow, ⟨⟩⟩ := Option.ite_none_right_eq_some.mp hstep
  have hticked := hs.tick hnow
  cases c with
  | putOutbox record => exact hticked.putOutbox record
  | markOutboxComplete id => exact hticked.markOutboxComplete horderly id
  | loadPendingOutbox =>
    exact { hticked with same := same_append hticked.same hticked.outbox }
  | putInbox id ttlNs => exact hticked.putInbox horderly ttlNs
  | seenInbox id => exact hticked.seenInbox id
  | reopen => exact hticked

/-- Both stores answer every call of an orderly run alike. -/
theorem stores_answer_alike {calls : List (UInt64 × Call)}
    (horderly : Runs.EachStep step Orderly {} calls) (hrun : Runs.run step {} calls = some s) :
    ∀ answers ∈ s.answers, answers.1.Same answers.2 :=
  (Runs.run_invariant (fun _ _ _ hs hcond hstep => hs.step hcond hstep)
    mirrors_empty horderly hrun).same

namespace StoreWitness

/-- Two deliveries, one of them completed after the store was reopened, and an
id that is asked for before and after it expires. -/
def orderly : List (UInt64 × Call) :=
  [(1, .putOutbox ⟨10⟩), (1, .putOutbox ⟨255⟩), (2, .reopen),
    (2, .markOutboxComplete 10), (2, .loadPendingOutbox), (3, .putInbox 7 5),
    (4, .seenInbox 7), (9, .seenInbox 7), (9, .seenInbox 7)]

/-- Whether a call went through, or what it found. -/
def said : StoreAnswer → Option Bool
  | .done (.ok _) => some true
  | .done (.error _) => some false
  | .pending _ => none
  | .seen found => some found

def saidBy (calls : List (UInt64 × Call)) : Option (List (Option Bool × Option Bool)) :=
  (Runs.run step {} calls).map fun s =>
    s.answers.map fun answers => (said answers.1, said answers.2)

theorem orderly_answers_alike :
    ∃ s, Runs.run step {} orderly = some s ∧ s.answers.length = 8 ∧
      ∀ answers ∈ s.answers, answers.1.Same answers.2 := by
  have hview : (Runs.run step {} orderly).map (fun s => s.answers.length) = some 8 := by
    decide +kernel
  obtain ⟨s, hrun, hlength⟩ := Option.map_eq_some_iff.mp hview
  exact ⟨s, hrun, hlength, stores_answer_alike (by decide +kernel) hrun⟩

/-- Completing a delivery that was never stored fails on one side only; and a
second `put_inbox` extends the time to live on one side only. -/
theorem answers_differ :
    saidBy [(1, .markOutboxComplete 1)] = some [(some false, some true)] ∧
      saidBy [(1, .putInbox 1 1), (2, .putInbox 1 8), (5, .seenInbox 1)] =
        some [(some true, some true), (some true, some true), (some false, some true)] := by
  decide +kernel

end StoreWitness

end StorePair

end HPActor
