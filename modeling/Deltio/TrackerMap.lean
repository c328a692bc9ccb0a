import Deltio.Lib.LeaseMap
import Deltio.Outstanding
import Mathlib.Order.Bounds.Basic

namespace Deltio.OutstandingMessageTracker

open Lib

def leases (t : OutstandingMessageTracker) : LeaseMap AckId PulledMessage := t.messages.get

/-- The modifications as changes of leases. -/
def changes (modifications : List DeadlineModification) : List (AckId × Option AckDeadline) :=
  modifications.map fun d => (d.ackId, d.newDeadline)

variable {t : OutstandingMessageTracker}

lemma remove_eq_removeAll (ackIds : List AckId) (t : OutstandingMessageTracker) :
    (remove ackIds t).1 = (t.leases.removeAll ackIds).1 ∧
      (remove ackIds t).2.leases = (t.leases.removeAll ackIds).2 := by
  induction ackIds generalizing t with
  | nil => exact ⟨rfl, rfl⟩
  | cons ackId ackIds ih =>
    unfold remove LeaseMap.removeAll
    split
    · next message hget =>
      have hleases : t.leases ackId = some message := hget
      obtain ⟨hfst, hsnd⟩ := ih { t with
        messages := t.messages.remove ackId
        expirations := t.expirations.remove message.expirationKey }
      have hmap : leases { t with
          messages := t.messages.remove ackId
          expirations := t.expirations.remove message.expirationKey } =
          Function.update t.leases ackId none := HashMap.get_remove_eq_update _ _
      rw [hmap] at hfst hsnd
      dsimp only
      rw [hfst, hsnd, hleases]
      exact ⟨rfl, rfl⟩
    · next hget =>
      have hleases : t.leases ackId = none := hget
      have hsame : Function.update t.leases ackId none = t.leases := by
        rw [← hleases, Function.update_eq_self]
      rw [hsame, hleases]
      exact ih t

lemma modify_eq_changeAll (modifications : List DeadlineModification)
    (t : OutstandingMessageTracker) :
    (modify modifications t).1 =
        (t.leases.changeAll PulledMessage.modifyDeadline (changes modifications)).1 ∧
      (modify modifications t).2.leases =
        (t.leases.changeAll PulledMessage.modifyDeadline (changes modifications)).2 := by
  induction modifications generalizing t with
  | nil => exact ⟨rfl, rfl⟩
  | cons d modifications ih =>
    have hcons : changes (d :: modifications) = (d.ackId, d.newDeadline) :: changes modifications :=
      rfl
    rw [hcons]
    unfold modify LeaseMap.changeAll LeaseMap.change
    cases hget : t.messages.get d.ackId with
    | none =>
      have hleases : t.leases d.ackId = none := hget
      simp only [hleases, List.nil_append]
      exact ih t
    | some message =>
      have hleases : t.leases d.ackId = some message := hget
      cases hdeadline : d.newDeadline with
      | some newDeadline =>
        simp only [hleases, List.nil_append]
        rw [show Function.update t.leases d.ackId (some (message.modifyDeadline newDeadline)) =
          leases { t with
            messages := t.messages.insert d.ackId (message.modifyDeadline newDeadline)
            expirations := (t.expirations.remove message.expirationKey).insert
              (message.modifyDeadline newDeadline).expirationKey }
          from (HashMap.get_insert_eq_update _ _ _).symm]
        exact ih _
      | none =>
        simp only [hleases]
        rw [show Function.update t.leases d.ackId none = leases { t with
            messages := t.messages.remove d.ackId
            expirations := t.expirations.remove message.expirationKey }
          from (HashMap.get_remove_eq_update _ _).symm]
        obtain ⟨hfst, hsnd⟩ := ih { t with
          messages := t.messages.remove d.ackId
          expirations := t.expirations.remove message.expirationKey }
        exact ⟨by rw [hfst]; rfl, hsnd⟩

/-- Messages are taken in the order of the expirations. -/
lemma SideBySide.map_takeExpired (h : t.SideBySide) (time : Instant) :
    (t.takeExpired time).1.map PulledMessage.expirationKey =
      t.expirations.list.takeWhile fun key => !decide (time < (ofLex key).1.time) := by
  induction hlist : t.expirations.list generalizing t with
  | nil =>
    have hnone : t.takeExpired time = ([], t) := takeExpired_of_first fun key hkey => by
      rw [SortedSet.first, hlist] at hkey
      cases hkey
    rw [hnone]
    rfl
  | cons key keys ih =>
    by_cases htime : time < (ofLex key).1.time
    · have hnone : t.takeExpired time = ([], t) := takeExpired_of_first fun key' hkey' => by
        rw [SortedSet.first, hlist, List.head?_cons] at hkey'
        cases hkey'
        exact htime
      rw [hnone, List.takeWhile_cons_of_neg (by simpa using htime)]
      rfl
    · obtain ⟨m, hm, rfl, htake⟩ := h.takeExpired_cons hlist htime
      have hrest := ih (h.takeOut hm) (SortedSet.list_remove_of_list_eq_cons hlist)
      rw [htake, List.map_cons, hrest, List.takeWhile_cons_of_pos (by simpa using htime)]

lemma SideBySide.pairwise_takeExpired (h : t.SideBySide) (time : Instant) :
    (t.takeExpired time).1.Pairwise fun m m' => m.expirationKey < m'.expirationKey := by
  rw [← List.pairwise_map, h.map_takeExpired time]
  exact t.expirations.sorted.sublist (List.takeWhile_sublist _)

lemma SideBySide.mem_takeExpired (h : t.SideBySide) (time : Instant) (m : PulledMessage) :
    m ∈ (t.takeExpired time).1 ↔ ∃ id, t.leases id = some m ∧ m.deadline.time ≤ time := by
  have htakes := h.takeExpired time
  constructor
  · intro hm
    obtain ⟨hget, hpassed⟩ := htakes.mem m hm
    exact ⟨m.ackId, hget, le_of_not_gt hpassed⟩
  · rintro ⟨id, hget, hpassed⟩
    have hvalues := (HashMap.mem_values t.messages m).mpr ⟨id, hget⟩
    rw [(t.perm_takeExpired time).mem_iff, List.mem_append] at hvalues
    refine hvalues.resolve_right fun hrest => ?_
    -- what is left has not expired
    obtain ⟨id', hleft⟩ := (HashMap.mem_values _ m).mp hrest
    rw [htakes.get id', Option.filter_eq_some_iff, decide_eq_true_iff] at hleft
    exact absurd hleft.2 (not_lt.mpr hpassed)

lemma SideBySide.nextExpiration_eq_some_iff (h : t.SideBySide) (deadline : AckDeadline) :
    t.nextExpiration = some deadline ↔
      IsLeast {d | ∃ id m, t.leases id = some m ∧ m.deadline = d} deadline := by
  have hmem : ∀ d, (∃ id m, t.leases id = some m ∧ m.deadline = d) ↔
      ∃ id, toLex (d, id) ∈ t.expirations := by
    intro d
    exact exists_congr fun id => (h.expirations d id).symm
  simp only [hmem]
  unfold nextExpiration SortedSet.first
  cases hlist : t.expirations.list with
  | nil =>
    refine iff_of_false (by simp) fun hleast => ?_
    obtain ⟨id, hid⟩ := hleast.1
    have hnil : toLex (deadline, id) ∈ t.expirations.list := hid
    rw [hlist] at hnil
    cases hnil
  | cons key keys =>
    have hleast : IsLeast {d | ∃ id, toLex (d, id) ∈ t.expirations} (ofLex key).1 := by
      refine ⟨⟨(ofLex key).2, SortedSet.mem_of_list_eq_cons hlist⟩, ?_⟩
      rintro d ⟨id, hid⟩
      exact Prod.Lex.monotone_fst _ _ (SortedSet.le_of_list_eq_cons hlist hid)
    rw [List.head?_cons, Option.map_some, Option.some.injEq]
    constructor
    · rintro rfl
      exact hleast
    · exact hleast.unique

lemma SideBySide.nextExpiration_eq_none_iff (h : t.SideBySide) :
    t.nextExpiration = none ↔ ∀ id, t.leases id = none := by
  constructor
  · intro hnone id
    cases hget : t.leases id with
    | none => rfl
    | some m =>
      have hmem : toLex (m.deadline, id) ∈ t.expirations.list :=
        (h.expirations m.deadline id).mpr ⟨m, hget, rfl⟩
      rw [nextExpiration, Option.map_eq_none_iff, SortedSet.first, List.head?_eq_none_iff] at hnone
      rw [hnone] at hmem
      cases hmem
  · intro hempty
    by_contra hsome
    obtain ⟨deadline, hdeadline⟩ := Option.ne_none_iff_exists'.mp hsome
    obtain ⟨⟨id, m, hget, -⟩, -⟩ := (h.nextExpiration_eq_some_iff deadline).mp hdeadline
    rw [hempty id] at hget
    cases hget

lemma SideBySide.nodup_values (h : t.SideBySide) : t.messages.values.Nodup := by
  have hkeys : t.messages.values.map PulledMessage.ackId = t.messages.keys := by
    unfold HashMap.values HashMap.keys AList.keys List.keys
    rw [List.map_map]
    refine List.map_congr_left fun entry hentry => ?_
    exact h.ackId entry.1 entry.2 ((HashMap.get_eq_some_iff _ _ _).mpr hentry)
  refine List.Nodup.of_map PulledMessage.ackId ?_
  rw [hkeys]
  exact t.messages.nodup_keys

/-- Side by side, the two containers are one map of leases: `takeExpired` takes exactly the
leases that have ended, by deadline and ack ID, `remove` and `modify` work off their batch
one ack ID after another, `nextExpiration` is the least deadline, and `drain` returns every
lease once. -/
theorem tracker_refines_lease_map (t : OutstandingMessageTracker) (h : t.SideBySide) :
    (∀ time, (t.takeExpired time).2.SideBySide ∧
      (t.takeExpired time).1.Pairwise (fun m m' => m.expirationKey < m'.expirationKey) ∧
      (∀ m, m ∈ (t.takeExpired time).1 ↔ ∃ id, t.leases id = some m ∧ m.deadline.time ≤ time) ∧
      ∀ id, (t.takeExpired time).2.leases id =
        (t.leases id).filter fun m => decide (time < m.deadline.time)) ∧
    (∀ ackIds, (remove ackIds t).2.SideBySide ∧
      (remove ackIds t).1 = ackIds.eraseDups.filterMap t.leases ∧
      ∀ id, (remove ackIds t).2.leases id = if id ∈ ackIds then none else t.leases id) ∧
    (∀ modifications, (modify modifications t).2.SideBySide ∧
      (modify modifications t).1 =
        (t.leases.changeAll PulledMessage.modifyDeadline (changes modifications)).1 ∧
      (modify modifications t).2.leases =
        (t.leases.changeAll PulledMessage.modifyDeadline (changes modifications)).2) ∧
    ((∀ deadline, t.nextExpiration = some deadline ↔
        IsLeast {d | ∃ id m, t.leases id = some m ∧ m.deadline = d} deadline) ∧
      (t.nextExpiration = none ↔ ∀ id, t.leases id = none)) ∧
    ∀ order : List PulledMessage → List PulledMessage, (∀ l, (order l).Perm l) →
      (t.drain order).2.SideBySide ∧ (t.drain order).1.Nodup ∧
      (∀ m, m ∈ (t.drain order).1 ↔ ∃ id, t.leases id = some m) ∧
      ∀ id, (t.drain order).2.leases id = none := by
  refine ⟨fun time => ?_, fun ackIds => ?_, fun modifications => ?_, ?_, fun order horder => ?_⟩
  · have htakes := h.takeExpired time
    exact ⟨htakes.sideBySide, h.pairwise_takeExpired time, h.mem_takeExpired time, htakes.get⟩
  · obtain ⟨hfst, hsnd⟩ := remove_eq_removeAll ackIds t
    rw [LeaseMap.removeAll_fst] at hfst
    rw [LeaseMap.removeAll_snd] at hsnd
    exact ⟨h.remove ackIds, hfst, fun id => congrFun hsnd id⟩
  · exact ⟨h.modify modifications, modify_eq_changeAll modifications t⟩
  · exact ⟨h.nextExpiration_eq_some_iff, h.nextExpiration_eq_none_iff⟩
  · have hperm : (t.drain order).1.Perm t.messages.values := horder _
    refine ⟨h.clear, hperm.nodup_iff.mpr h.nodup_values, fun m => ?_, fun id => rfl⟩
    rw [hperm.mem_iff, HashMap.mem_values]
    rfl

namespace Sample

def lease (id : ℕ) : PulledMessage :=
  ⟨TopicMessage.new [] none 0, ⟨id⟩, ⟨100000000⟩, 1⟩

end Sample

/-- Two leases that end together.  Of an ack ID that is mentioned twice, the second mention
does nothing. -/
theorem tracker_removes_in_order_of_mention :
    (remove [⟨2⟩, ⟨1⟩, ⟨2⟩] ((new.add (Sample.lease 1)).add (Sample.lease 2))).1 =
      [Sample.lease 2, Sample.lease 1] := by
  have hfirst : (new.add (Sample.lease 1)).SideBySide := sideBySide_new.add rfl
  have hsecond : ((new.add (Sample.lease 1)).add (Sample.lease 2)).SideBySide :=
    hfirst.add (by decide)
  rw [((tracker_refines_lease_map _ hsecond).2.1 [⟨2⟩, ⟨1⟩, ⟨2⟩]).2.1]
  decide

end Deltio.OutstandingMessageTracker
