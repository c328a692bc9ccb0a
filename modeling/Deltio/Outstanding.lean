import Deltio.Lib.SortedSet
import Deltio.Message

namespace Deltio

open Lib

/-- Keeps track of pulled messages and their deadlines.  `undefinedBehaviour` is
not a field of the program: it records that an `unwrap_unchecked` was applied to
`None`. -/
structure OutstandingMessageTracker where
  messages : HashMap AckId PulledMessage
  expirations : SortedSet (AckDeadline ×ₗ AckId)
  undefinedBehaviour : Bool
deriving DecidableEq

namespace OutstandingMessageTracker

def new : OutstandingMessageTracker := ⟨∅, ∅, false⟩

def add (t : OutstandingMessageTracker) (message : PulledMessage) : OutstandingMessageTracker :=
  { t with
    messages := t.messages.insert message.ackId message
    expirations := t.expirations.insert message.expirationKey }

def nextExpiration (t : OutstandingMessageTracker) : Option AckDeadline :=
  t.expirations.first.map fun key => (ofLex key).1

def takeMessages : List (AckDeadline ×ₗ AckId) → OutstandingMessageTracker →
    List PulledMessage × OutstandingMessageTracker
  | [], t => ([], t)
  | key :: keys, t =>
    match t.messages.get (ofLex key).2 with
    | some message =>
      let r := takeMessages keys { t with messages := t.messages.remove (ofLex key).2 }
      (message :: r.1, r.2)
    | none => takeMessages keys { t with undefinedBehaviour := true }

def takeExpired (t : OutstandingMessageTracker) (time : Instant) :
    List PulledMessage × OutstandingMessageTracker :=
  let popped := t.expirations.popWhile fun key => !decide (time < (ofLex key).1.time)
  takeMessages popped.1 { t with expirations := popped.2 }

/-- The loop of `takeExpired` with its two unwraps checked: there is no result when one
of them is applied to `None`, or when the loop has not ended after `fuel` rounds. -/
def takeExpiredChecked (time : Instant) : ℕ → OutstandingMessageTracker → List PulledMessage →
    Option (List PulledMessage × OutstandingMessageTracker)
  | 0, _, _ => none
  | fuel + 1, t, result =>
    match t.expirations.first with
    | none => some (result, t)
    | some key =>
      if time < (ofLex key).1.time then some (result, t)
      else
        t.expirations.popFirst.bind fun popped =>
          (t.messages.get (ofLex popped.1).2).bind fun message =>
            takeExpiredChecked time fuel { t with
              messages := t.messages.remove (ofLex popped.1).2
              expirations := popped.2 } (result ++ [message])

def remove : List AckId → OutstandingMessageTracker →
    List PulledMessage × OutstandingMessageTracker
  | [], t => ([], t)
  | ackId :: ackIds, t =>
    match t.messages.get ackId with
    | some message =>
      let r := remove ackIds { t with
        messages := t.messages.remove ackId
        expirations := t.expirations.remove message.expirationKey }
      (message :: r.1, r.2)
    | none => remove ackIds t

/-- Moves deadlines; a modification without a new deadline takes the message out.
Returns the messages taken out. -/
def modify : List DeadlineModification → OutstandingMessageTracker →
    List PulledMessage × OutstandingMessageTracker
  | [], t => ([], t)
  | modification :: modifications, t =>
    match t.messages.get modification.ackId with
    | none => modify modifications t
    | some message =>
      let expirations := t.expirations.remove message.expirationKey
      match modification.newDeadline with
      | some newDeadline =>
        let message := message.modifyDeadline newDeadline
        modify modifications { t with
          messages := t.messages.insert modification.ackId message
          expirations := expirations.insert message.expirationKey }
      | none =>
        let r := modify modifications { t with
          messages := t.messages.remove modification.ackId
          expirations := expirations }
        (message :: r.1, r.2)

def clear (t : OutstandingMessageTracker) : OutstandingMessageTracker :=
  { t with messages := ∅, expirations := ∅ }

/-- Removes and returns all messages; `order` is the iteration order of the map. -/
def drain (t : OutstandingMessageTracker) (order : List PulledMessage → List PulledMessage) :
    List PulledMessage × OutstandingMessageTracker :=
  (order t.messages.values, t.clear)

def len (t : OutstandingMessageTracker) : ℕ := t.messages.len

def contains (t : OutstandingMessageTracker) (ackId : AckId) : Bool := t.messages.containsKey ackId

def held (t : OutstandingMessageTracker) : List TopicMessage :=
  t.messages.values.map PulledMessage.message

lemma len_eq_length_held (t : OutstandingMessageTracker) : t.len = t.held.length := by
  simp [len, held, HashMap.len_eq_length_values]

@[simp] lemma held_new : new.held = [] := rfl

@[simp] lemma held_clear (t : OutstandingMessageTracker) : t.clear.held = [] := rfl

lemma held_add {t : OutstandingMessageTracker} {message : PulledMessage}
    (h : t.messages.get message.ackId = none) : (t.add message).held = message.message :: t.held := by
  simp [held, add, HashMap.values_insert h]

lemma perm_takeMessages (keys : List (AckDeadline ×ₗ AckId)) (t : OutstandingMessageTracker) :
    t.messages.values.Perm ((takeMessages keys t).1 ++ (takeMessages keys t).2.messages.values) := by
  induction keys generalizing t with
  | nil => exact List.Perm.refl _
  | cons key keys ih =>
    unfold takeMessages
    split
    · next message h =>
      have hrest := ih { t with messages := t.messages.remove (ofLex key).2 }
      exact (HashMap.values_perm_remove h).trans (hrest.cons message)
    · exact ih { t with undefinedBehaviour := true }

lemma perm_takeExpired (t : OutstandingMessageTracker) (time : Instant) :
    t.messages.values.Perm ((t.takeExpired time).1 ++ (t.takeExpired time).2.messages.values) :=
  perm_takeMessages _ { t with expirations := (t.expirations.popWhile _).2 }

lemma perm_remove (ackIds : List AckId) (t : OutstandingMessageTracker) :
    t.messages.values.Perm ((remove ackIds t).1 ++ (remove ackIds t).2.messages.values) := by
  induction ackIds generalizing t with
  | nil => exact List.Perm.refl _
  | cons ackId ackIds ih =>
    unfold remove
    split
    · next message h =>
      have hrest := ih { t with
        messages := t.messages.remove ackId
        expirations := t.expirations.remove message.expirationKey }
      exact (HashMap.values_perm_remove h).trans (hrest.cons message)
    · exact ih t

/-- A new deadline keeps everything else of a message, a nack hands it back. -/
lemma perm_modify_map {α : Type*} {f : PulledMessage → α}
    (hf : ∀ message newDeadline, f (PulledMessage.modifyDeadline message newDeadline) = f message)
    (modifications : List DeadlineModification) (t : OutstandingMessageTracker) :
    (t.messages.values.map f).Perm ((modify modifications t).1.map f ++
      (modify modifications t).2.messages.values.map f) := by
  induction modifications generalizing t with
  | nil => exact List.Perm.refl _
  | cons modification modifications ih =>
    unfold modify
    split
    · exact ih t
    · next message h =>
      split
      · next newDeadline hd =>
        refine List.Perm.trans ?_ (ih _)
        have hp := (HashMap.values_perm_insert (w := message.modifyDeadline newDeadline) h).map f
        rw [List.map_cons, List.map_cons, hf] at hp
        exact (List.Perm.cons_inv hp).symm
      · have hp := (HashMap.values_perm_remove h).map f
        have hrest := ih { t with
          messages := t.messages.remove modification.ackId
          expirations := t.expirations.remove message.expirationKey }
        exact hp.trans (hrest.cons (f message))

lemma perm_modify (modifications : List DeadlineModification) (t : OutstandingMessageTracker) :
    t.held.Perm ((modify modifications t).1.map PulledMessage.message ++
      (modify modifications t).2.held) :=
  perm_modify_map (fun _ _ => rfl) modifications t

def Shrinks (t t' : OutstandingMessageTracker) : Prop :=
  ∀ id, t.messages.get id = none → t'.messages.get id = none

lemma Shrinks.refl (t : OutstandingMessageTracker) : Shrinks t t := fun _ h => h

lemma Shrinks.after_remove {t t' t'' : OutstandingMessageTracker} {id : AckId}
    (h : Shrinks t' t'') (hr : t'.messages = t.messages.remove id) : Shrinks t t'' := by
  intro id' h'
  refine h id' ?_
  rw [hr, HashMap.get_remove, h', ite_self]

lemma shrinks_takeMessages (keys : List (AckDeadline ×ₗ AckId)) (t : OutstandingMessageTracker) :
    Shrinks t (takeMessages keys t).2 := by
  induction keys generalizing t with
  | nil => exact .refl t
  | cons key keys ih =>
    unfold takeMessages
    split
    · exact (ih _).after_remove rfl
    · exact ih { t with undefinedBehaviour := true }

lemma shrinks_takeExpired (t : OutstandingMessageTracker) (time : Instant) :
    Shrinks t (t.takeExpired time).2 :=
  shrinks_takeMessages _ { t with expirations := (t.expirations.popWhile _).2 }

lemma shrinks_remove (ackIds : List AckId) (t : OutstandingMessageTracker) :
    Shrinks t (remove ackIds t).2 := by
  induction ackIds generalizing t with
  | nil => exact .refl t
  | cons ackId ackIds ih =>
    unfold remove
    split
    · exact (ih _).after_remove rfl
    · exact ih t

lemma shrinks_modify (modifications : List DeadlineModification) (t : OutstandingMessageTracker) :
    Shrinks t (modify modifications t).2 := by
  induction modifications generalizing t with
  | nil => exact .refl t
  | cons modification modifications ih =>
    unfold modify
    split
    · exact ih t
    · next message hm =>
      split
      · next newDeadline hd =>
        intro id hid
        refine ih _ id ?_
        have hne : id ≠ modification.ackId := by
          rintro rfl
          rw [hm] at hid
          cases hid
        simp only [HashMap.get_insert, hne, if_false, hid]
      · exact (ih _).after_remove rfl

lemma len_takeExpired (t : OutstandingMessageTracker) (time : Instant) :
    t.len = (t.takeExpired time).1.length + (t.takeExpired time).2.len := by
  simp only [len, HashMap.len_eq_length_values, (t.perm_takeExpired time).length_eq,
    List.length_append]

lemma len_remove (ackIds : List AckId) (t : OutstandingMessageTracker) :
    t.len = (remove ackIds t).1.length + (remove ackIds t).2.len := by
  simp only [len, HashMap.len_eq_length_values, (perm_remove ackIds t).length_eq,
    List.length_append]

lemma len_modify (modifications : List DeadlineModification) (t : OutstandingMessageTracker) :
    t.len = (modify modifications t).1.length + (modify modifications t).2.len := by
  simp only [len_eq_length_held, (perm_modify modifications t).length_eq, List.length_append,
    List.length_map]

/-- The expirations are those of the messages, each message is under its own ack ID,
and no `unwrap_unchecked` has failed. -/
structure SideBySide (t : OutstandingMessageTracker) : Prop where
  expirations : ∀ deadline id, toLex (deadline, id) ∈ t.expirations ↔
    ∃ m, t.messages.get id = some m ∧ m.deadline = deadline
  ackId : ∀ id m, t.messages.get id = some m → m.ackId = id
  defined : t.undefinedBehaviour = false

lemma sideBySide_new : new.SideBySide := by
  refine ⟨fun deadline id => ?_, fun id m h => ?_, rfl⟩
  · exact iff_of_false (SortedSet.notMem_empty _) (by rintro ⟨m, ⟨⟩, -⟩)
  · cases h

lemma SideBySide.clear {t : OutstandingMessageTracker} (h : t.SideBySide) : t.clear.SideBySide :=
  ⟨sideBySide_new.expirations, sideBySide_new.ackId, h.defined⟩

/-- `add` keeps the two in step only for an ack ID that is not in use. -/
lemma SideBySide.add {t : OutstandingMessageTracker} (h : t.SideBySide) {m : PulledMessage}
    (hm : t.messages.get m.ackId = none) : (t.add m).SideBySide := by
  refine ⟨fun deadline id => ?_, fun id m' hm' => ?_, h.defined⟩
  · change toLex (deadline, id) ∈ t.expirations.insert m.expirationKey ↔
      ∃ m', (t.messages.insert m.ackId m).get id = some m' ∧ m'.deadline = deadline
    rw [SortedSet.mem_insert, h.expirations, HashMap.get_insert]
    split_ifs with hid
    · subst hid
      simp [hm, PulledMessage.expirationKey, eq_comm]
    · have hne : toLex (deadline, id) ≠ m.expirationKey := by
        intro heq
        exact hid (Prod.ext_iff.mp (toLex.injective heq)).2
      simp [hne]
  · change (t.messages.insert m.ackId m).get id = some m' at hm'
    rw [HashMap.get_insert] at hm'
    split_ifs at hm' with hid
    · cases hm'
      exact hid.symm
    · exact h.ackId id m' hm'

def takeOut (t : OutstandingMessageTracker) (m : PulledMessage) : OutstandingMessageTracker :=
  { t with
    messages := t.messages.remove m.ackId
    expirations := t.expirations.remove m.expirationKey }

lemma SideBySide.takeOut {t : OutstandingMessageTracker} (h : t.SideBySide) {m : PulledMessage}
    (hm : t.messages.get m.ackId = some m) : (t.takeOut m).SideBySide := by
  refine ⟨fun deadline id => ?_, fun id m' hm' => ?_, h.defined⟩
  · change toLex (deadline, id) ∈ t.expirations.remove m.expirationKey ↔
      ∃ m', (t.messages.remove m.ackId).get id = some m' ∧ m'.deadline = deadline
    rw [SortedSet.mem_remove, h.expirations, HashMap.get_remove]
    split_ifs with hid
    · subst hid
      refine iff_of_false ?_ (by rintro ⟨m', ⟨⟩, -⟩)
      rintro ⟨hne, m', hm', rfl⟩
      rw [hm] at hm'
      cases hm'
      exact hne rfl
    · have hne : toLex (deadline, id) ≠ m.expirationKey := by
        intro heq
        exact hid (Prod.ext_iff.mp (toLex.injective heq)).2
      exact and_iff_right hne
  · change (t.messages.remove m.ackId).get id = some m' at hm'
    rw [HashMap.get_remove] at hm'
    split_ifs at hm'
    exact h.ackId id m' hm'

lemma SideBySide.congr {t t' : OutstandingMessageTracker} (h : t.SideBySide)
    (hm : ∀ id, t'.messages.get id = t.messages.get id) (he : t'.expirations = t.expirations)
    (hu : t'.undefinedBehaviour = t.undefinedBehaviour) : t'.SideBySide := by
  refine ⟨fun deadline id => ?_, fun id m hid => ?_, hu.trans h.defined⟩
  · rw [he, h.expirations, hm]
  · exact h.ackId id m (hm id ▸ hid)

lemma SideBySide.remove {t : OutstandingMessageTracker} (h : t.SideBySide) (ackIds : List AckId) :
    (OutstandingMessageTracker.remove ackIds t).2.SideBySide := by
  induction ackIds generalizing t with
  | nil => exact h
  | cons ackId ackIds ih =>
    unfold OutstandingMessageTracker.remove
    split
    · next m hm =>
      obtain rfl := h.ackId ackId m hm
      exact ih (h.takeOut hm)
    · exact ih h

lemma SideBySide.modify {t : OutstandingMessageTracker} (h : t.SideBySide)
    (modifications : List DeadlineModification) :
    (OutstandingMessageTracker.modify modifications t).2.SideBySide := by
  induction modifications generalizing t with
  | nil => exact h
  | cons modification modifications ih =>
    unfold OutstandingMessageTracker.modify
    split
    · exact ih h
    · next m hm =>
      have hid := h.ackId _ m hm
      rw [← hid] at hm ⊢
      split
      · next newDeadline hd =>
        have hput := (h.takeOut hm).add (m := m.modifyDeadline newDeadline)
          (HashMap.get_remove_self _ _)
        refine ih (hput.congr (fun id => ?_) rfl rfl)
        change (t.messages.insert m.ackId _).get id =
          ((t.messages.remove m.ackId).insert m.ackId _).get id
        rw [HashMap.get_insert, HashMap.get_insert, HashMap.get_remove]
        split_ifs <;> rfl
      · exact ih (h.takeOut hm)

lemma get_remove (ackIds : List AckId) (t : OutstandingMessageTracker) (id : AckId) :
    (remove ackIds t).2.messages.get id = if id ∈ ackIds then none else t.messages.get id := by
  induction ackIds generalizing t with
  | nil => exact (if_neg List.not_mem_nil).symm
  | cons ackId ackIds ih =>
    unfold remove
    split
    · dsimp only
      rw [ih, HashMap.get_remove]
      by_cases hid : id = ackId <;> simp [hid]
    · next hnone =>
      rw [ih]
      by_cases hid : id = ackId
      · subst hid
        simp [hnone]
      · simp [hid]

/-- A removed message is handed back. -/
lemma mem_remove_of_get {ackIds : List AckId} {t : OutstandingMessageTracker} {id : AckId}
    {m : PulledMessage} (hid : id ∈ ackIds) (hm : t.messages.get id = some m) :
    m ∈ (remove ackIds t).1 := by
  induction ackIds generalizing t with
  | nil => cases hid
  | cons ackId ackIds ih =>
    unfold remove
    by_cases heq : id = ackId
    · subst heq
      simp only [hm]
      exact List.mem_cons_self
    · have hrest : id ∈ ackIds := (List.mem_cons.mp hid).resolve_left heq
      split
      · refine List.mem_cons_of_mem _ (ih hrest ?_)
        rw [HashMap.get_remove, if_neg heq, hm]
      · exact ih hrest hm

/-- What a batch of modifications makes of the message under an ack ID. -/
def modified (id : AckId) : List DeadlineModification → Option PulledMessage → Option PulledMessage
  | [], m => m
  | modification :: modifications, m =>
    if modification.ackId = id then
      modified id modifications (m.bind fun m => modification.newDeadline.map m.modifyDeadline)
    else modified id modifications m

lemma get_modify (modifications : List DeadlineModification) (t : OutstandingMessageTracker)
    (id : AckId) : (modify modifications t).2.messages.get id =
      modified id modifications (t.messages.get id) := by
  induction modifications generalizing t with
  | nil => rfl
  | cons modification modifications ih =>
    unfold modify modified
    split
    · next hnone =>
      rw [ih]
      split_ifs with hid
      · rw [← hid, hnone]
        rfl
      · rfl
    · next m hm =>
      split
      · next newDeadline hd =>
        rw [ih, HashMap.get_insert]
        by_cases hid : modification.ackId = id
        · rw [if_pos hid, if_pos hid.symm, ← hid, hm, hd]
          rfl
        · rw [if_neg hid, if_neg (Ne.symm hid)]
      · next hd =>
        dsimp only
        rw [ih, HashMap.get_remove]
        by_cases hid : modification.ackId = id
        · rw [if_pos hid, if_pos hid.symm, ← hid, hm, hd]
          rfl
        · rw [if_neg hid, if_neg (Ne.symm hid)]

/-- Modifications of unknown ack IDs do nothing. -/
lemma modify_of_absent {modifications : List DeadlineModification} {t : OutstandingMessageTracker}
    (h : ∀ d ∈ modifications, t.messages.get d.ackId = none) : modify modifications t = ([], t) := by
  induction modifications with
  | nil => rfl
  | cons modification modifications ih =>
    unfold modify
    simp only [h modification List.mem_cons_self]
    exact ih fun d hd => h d (List.mem_cons_of_mem _ hd)

/-- Consecutive ack IDs from one that is above all in use. -/
structure Above (t : OutstandingMessageTracker) (next : ℕ) (ps : List PulledMessage) : Prop where
  unused : ∀ id : AckId, next ≤ id.value → t.messages.get id = none
  ackIds : ps.map (fun p => p.ackId.value) = List.range' next ps.length

lemma Above.tail {t : OutstandingMessageTracker} {next : ℕ} {p : PulledMessage}
    {ps : List PulledMessage} (h : t.Above next (p :: ps)) :
    p.ackId.value = next ∧ (t.add p).Above (next + 1) ps := by
  have hids := h.ackIds
  rw [List.map_cons, List.length_cons, List.range'_succ, List.cons.injEq] at hids
  refine ⟨hids.1, fun id hid => ?_, hids.2⟩
  change (t.messages.insert p.ackId p).get id = none
  have hne : id ≠ p.ackId := by
    rintro rfl
    omega
  rw [HashMap.get_insert, if_neg hne]
  exact h.unused id (by omega)

lemma SideBySide.foldl_add {t : OutstandingMessageTracker} (h : t.SideBySide) {next : ℕ}
    {ps : List PulledMessage} (hps : t.Above next ps) : (ps.foldl .add t).SideBySide := by
  induction ps generalizing t next with
  | nil => exact h
  | cons p ps ih =>
    obtain ⟨hid, htail⟩ := hps.tail
    exact ih (h.add (hps.unused p.ackId hid.ge)) htail

/-- Old ack IDs keep their message. -/
lemma Above.get_foldl_add {t : OutstandingMessageTracker} {next : ℕ} {ps : List PulledMessage}
    (h : t.Above next ps) {id : AckId} (hid : id.value < next) :
    (ps.foldl .add t).messages.get id = t.messages.get id := by
  induction ps generalizing t next with
  | nil => rfl
  | cons p ps ih =>
    obtain ⟨hp, htail⟩ := h.tail
    rw [List.foldl_cons, ih htail (by omega)]
    change (t.messages.insert p.ackId p).get id = t.messages.get id
    have hne : id ≠ p.ackId := by
      rintro rfl
      omega
    rw [HashMap.get_insert, if_neg hne]

lemma Above.perm_foldl_add {t : OutstandingMessageTracker} {next : ℕ} {ps : List PulledMessage}
    (h : t.Above next ps) : (ps.foldl .add t).messages.values.Perm (ps ++ t.messages.values) := by
  induction ps generalizing t next with
  | nil => exact List.Perm.refl _
  | cons p ps ih =>
    obtain ⟨hp, htail⟩ := h.tail
    have hone : (t.add p).messages.values = p :: t.messages.values :=
      HashMap.values_insert (h.unused p.ackId hp.ge) p
    have hrest := ih htail
    rw [hone] at hrest
    exact hrest.trans List.perm_middle

lemma Above.get_of_mem {t : OutstandingMessageTracker} {next : ℕ} {ps : List PulledMessage}
    (h : t.Above next ps) {p : PulledMessage} (hp : p ∈ ps) :
    (ps.foldl .add t).messages.get p.ackId = some p := by
  induction ps generalizing t next with
  | nil => cases hp
  | cons q ps ih =>
    obtain ⟨hq, htail⟩ := h.tail
    rcases List.mem_cons.mp hp with rfl | hp
    · rw [List.foldl_cons, htail.get_foldl_add (by omega)]
      exact HashMap.get_insert_self _ _ _
    · exact ih htail hp

lemma takeExpired_of_first {t : OutstandingMessageTracker} {time : Instant}
    (h : ∀ key, t.expirations.first = some key → time < (ofLex key).1.time) :
    t.takeExpired time = ([], t) := by
  unfold takeExpired
  rw [SortedSet.popWhile_of_first fun key hkey => by simp [h key hkey]]
  rfl

/-- An expired first entry is taken, and the loop goes on. -/
lemma SideBySide.takeExpired_cons {t : OutstandingMessageTracker} (h : t.SideBySide)
    {time : Instant} {key : AckDeadline ×ₗ AckId} {keys : List (AckDeadline ×ₗ AckId)}
    (hlist : t.expirations.list = key :: keys) (htime : ¬ time < (ofLex key).1.time) :
    ∃ m, t.messages.get m.ackId = some m ∧ key = m.expirationKey ∧
      t.takeExpired time =
        (m :: ((t.takeOut m).takeExpired time).1, ((t.takeOut m).takeExpired time).2) := by
  have hmem := SortedSet.mem_of_list_eq_cons hlist
  obtain ⟨m, hm, hdeadline⟩ := (h.expirations (ofLex key).1 (ofLex key).2).mp hmem
  have hid := h.ackId _ m hm
  have hkey : key = m.expirationKey := by
    rw [PulledMessage.expirationKey, hid, hdeadline]
    rfl
  subst hkey
  refine ⟨m, hm, rfl, ?_⟩
  unfold OutstandingMessageTracker.takeExpired
  rw [SortedSet.popWhile_cons hlist (by simpa using htime)]
  dsimp only
  rw [OutstandingMessageTracker.takeMessages]
  have hget : t.messages.get (ofLex m.expirationKey).2 = some m := hm
  simp only [hget]
  rfl

/-- What taking the expired messages does: exactly those whose deadline has passed go. -/
structure TakesExpired (t : OutstandingMessageTracker) (time : Instant)
    (taken : List PulledMessage) (t' : OutstandingMessageTracker) : Prop where
  sideBySide : t'.SideBySide
  get : ∀ id, t'.messages.get id =
    (t.messages.get id).filter fun m => decide (time < m.deadline.time)
  mem : ∀ m ∈ taken, t.messages.get m.ackId = some m ∧ ¬ time < m.deadline.time
  checked : ∀ fuel result, t.expirations.list.length < fuel →
    takeExpiredChecked time fuel t result = some (result ++ taken, t')

/-- The expirations are sorted, so none has passed when the first has not. -/
lemma SideBySide.takesExpired_of_first {t : OutstandingMessageTracker} (h : t.SideBySide)
    {time : Instant} (hfirst : ∀ key, t.expirations.first = some key → time < (ofLex key).1.time) :
    TakesExpired t time [] t := by
  refine ⟨h, fun id => ?_, fun m hm => absurd hm List.not_mem_nil, fun fuel result hfuel => ?_⟩
  · cases hm : t.messages.get id with
    | none => rfl
    | some m =>
      have hmem := (h.expirations m.deadline id).mpr ⟨m, hm, rfl⟩
      cases hlist : t.expirations.list with
      | nil =>
        have hmem' : toLex (m.deadline, id) ∈ t.expirations.list := hmem
        rw [hlist] at hmem'
        cases hmem'
      | cons key keys =>
        have hkey : time < (ofLex key).1.time := by
          apply hfirst
          rw [SortedSet.first, hlist, List.head?_cons]
        have hle : (ofLex key).1 ≤ m.deadline :=
          Prod.Lex.monotone_fst _ _ (SortedSet.le_of_list_eq_cons hlist hmem)
        have hlt : time < m.deadline.time := lt_of_lt_of_le hkey hle
        rw [Option.filter_some, if_pos (decide_eq_true hlt)]
  · obtain ⟨fuel, rfl⟩ := Nat.exists_eq_add_of_lt hfuel
    rw [List.append_nil]
    unfold takeExpiredChecked
    split
    · rfl
    · next key hkey => rw [if_pos (hfirst key hkey)]

lemma TakesExpired.cons {t t' : OutstandingMessageTracker} {time : Instant} {m : PulledMessage}
    {taken : List PulledMessage} {keys : List (AckDeadline ×ₗ AckId)}
    (hm : t.messages.get m.ackId = some m) (hlist : t.expirations.list = m.expirationKey :: keys)
    (htime : ¬ time < m.deadline.time) (h : TakesExpired (t.takeOut m) time taken t') :
    TakesExpired t time (m :: taken) t' := by
  refine ⟨h.sideBySide, fun id => ?_, fun m' hm' => ?_, fun fuel result hfuel => ?_⟩
  · rw [h.get id]
    change ((t.messages.remove m.ackId).get id).filter _ = _
    rw [HashMap.get_remove]
    split_ifs with hid
    · rw [hid, hm, Option.filter_some_neg (by simpa using htime)]
      rfl
    · rfl
  · rcases List.mem_cons.mp hm' with rfl | hm'
    · exact ⟨hm, htime⟩
    · obtain ⟨hget, hpassed⟩ := h.mem m' hm'
      refine ⟨?_, hpassed⟩
      change (t.messages.remove m.ackId).get m'.ackId = some m' at hget
      rw [HashMap.get_remove] at hget
      split_ifs at hget
      exact hget
  · obtain ⟨fuel, rfl⟩ := Nat.exists_eq_add_of_lt (Nat.zero_lt_of_lt hfuel)
    rw [Nat.zero_add] at hfuel ⊢
    have hfirst : t.expirations.first = some m.expirationKey := by
      rw [SortedSet.first, hlist, List.head?_cons]
    have hlen : (t.takeOut m).expirations.list.length < fuel := by
      have hrest : (t.takeOut m).expirations.list = keys :=
        SortedSet.list_remove_of_list_eq_cons hlist
      rw [hlist, List.length_cons] at hfuel
      rw [hrest]
      omega
    unfold takeExpiredChecked
    have htime' : ¬ time < (ofLex m.expirationKey).1.time := htime
    have hget : t.messages.get (ofLex m.expirationKey).2 = some m := hm
    simp only [hfirst, if_neg htime', SortedSet.popFirst_of_list_eq_cons hlist, Option.bind_some,
      hget]
    have hrest := h.checked fuel (result ++ [m]) hlen
    rw [List.append_assoc] at hrest
    exact hrest

/-- No unwrap of `takeExpired` fails, and it takes exactly the expired messages. -/
theorem SideBySide.takeExpired {t : OutstandingMessageTracker} (h : t.SideBySide)
    (time : Instant) : TakesExpired t time (t.takeExpired time).1 (t.takeExpired time).2 := by
  induction hlist : t.expirations.list generalizing t with
  | nil =>
    have hfirst : ∀ key, t.expirations.first = some key → time < (ofLex key).1.time := by
      intro key hkey
      rw [SortedSet.first, hlist] at hkey
      cases hkey
    rw [takeExpired_of_first hfirst]
    exact h.takesExpired_of_first hfirst
  | cons key keys ih =>
    by_cases htime : time < (ofLex key).1.time
    · have hfirst : ∀ key', t.expirations.first = some key' → time < (ofLex key').1.time := by
        intro key' hkey'
        rw [SortedSet.first, hlist, List.head?_cons] at hkey'
        cases hkey'
        exact htime
      rw [takeExpired_of_first hfirst]
      exact h.takesExpired_of_first hfirst
    · obtain ⟨m, hm, rfl, htake⟩ := h.takeExpired_cons hlist htime
      rw [htake]
      exact .cons hm hlist htime (ih (h.takeOut hm) (SortedSet.list_remove_of_list_eq_cons hlist))

end OutstandingMessageTracker

end Deltio
