import Mathlib.Data.List.TakeWhile
import Mathlib.Data.String.Basic

namespace Deltio.Lib.Exposition

structure Sample where
  name : String
  labels : List (String × String)
  value : String
deriving DecidableEq

/-- The characters of names, without the colon that recording rules add. -/
def isNameChar (c : Char) : Bool := c.isAlphanum || c == '_'

/-- The rest of a quoted value, and what comes after the quote. -/
def readQuoted : List Char → Option (List Char × List Char)
  | [] => none
  | '"' :: rest => some ([], rest)
  | '\\' :: '\\' :: rest => (readQuoted rest).map fun r => ('\\' :: r.1, r.2)
  | '\\' :: '"' :: rest => (readQuoted rest).map fun r => ('"' :: r.1, r.2)
  | '\\' :: 'n' :: rest => (readQuoted rest).map fun r => ('\n' :: r.1, r.2)
  | '\\' :: _ => none
  | c :: rest => (readQuoted rest).map fun r => (c :: r.1, r.2)

def readLabel (chars : List Char) : Option ((String × String) × List Char) :=
  match chars.dropWhile isNameChar with
  | '=' :: '"' :: rest => (readQuoted rest).map fun r =>
    ((String.ofList (chars.takeWhile isNameChar), String.ofList r.1), r.2)
  | _ => none

/-- At most `fuel` labels up to the closing brace, and what comes after it. -/
def readLabels : ℕ → List Char → Option (List (String × String) × List Char)
  | 0, _ => none
  | fuel + 1, chars =>
    match readLabel chars with
    | some (label, ',' :: rest) => (readLabels fuel rest).map fun r => (label :: r.1, r.2)
    | some (label, '\x7d' :: rest) => some ([label], rest)
    | _ => none

/-- The labels, which may be left out with their braces. -/
def readLabelSet : List Char → Option (List (String × String) × List Char)
  | '\x7b' :: '\x7d' :: rest => some ([], rest)
  | '\x7b' :: rest => readLabels rest.length rest
  | rest => some ([], rest)

/-- A line without its line feed. -/
def readSample (line : List Char) : Option Sample :=
  match readLabelSet (line.dropWhile isNameChar) with
  | some (labels, ' ' :: value) =>
    some ⟨String.ofList (line.takeWhile isNameChar), labels, String.ofList value⟩
  | _ => none

/-- The lines of a text that ends with a line feed or is empty. -/
def lines : List Char → Option (List (List Char))
  | [] => some []
  | c :: rest =>
    if c = '\n' then (lines rest).map fun ls => [] :: ls
    else
      match lines rest with
      | some (l :: ls) => some ((c :: l) :: ls)
      | _ => none

def isComment (line : List Char) : Bool := line.head? == some '#'

def readText (text : List Char) : Option (List Sample) :=
  (lines text).bind fun ls => (ls.filter fun l => !isComment l).mapM readSample

def escape (c : Char) : List Char :=
  if c = '\\' then ['\\', '\\'] else if c = '"' then ['\\', '"']
  else if c = '\n' then ['\\', 'n'] else [c]

def labelText (label : String × String) : List Char :=
  label.1.toList ++ '=' :: '"' :: (label.2.toList.flatMap escape ++ ['"'])

def labelsText : List (String × String) → List Char
  | [] => []
  | label :: labels => labelText label ++ labels.flatMap fun l => ',' :: labelText l

def sampleText (s : Sample) : List Char :=
  s.name.toList ++ '\x7b' :: (labelsText s.labels ++ '\x7d' :: ' ' :: s.value.toList)

/-- The name and the keys are made of name characters, and the value is on one line. -/
structure Sample.WellFormed (s : Sample) : Prop where
  name : ∀ c ∈ s.name.toList, isNameChar c = true
  keys : ∀ label ∈ s.labels, ∀ c ∈ label.1.toList, isNameChar c = true
  value : '\n' ∉ s.value.toList

lemma readQuoted_escape (c : Char) (rest : List Char) :
    readQuoted (escape c ++ rest) = (readQuoted rest).map fun r => (c :: r.1, r.2) := by
  unfold escape
  split_ifs with hback hquote hfeed
  · subst hback
    rfl
  · subst hquote
    rfl
  · subst hfeed
    rfl
  · rw [List.singleton_append, readQuoted.eq_7]
    · exact hquote
    · exact fun _ h => absurd h hback
    · exact fun _ h => absurd h hback
    · exact fun _ h => absurd h hback
    · exact fun h => absurd h hback

lemma readQuoted_escaped (value rest : List Char) :
    readQuoted (value.flatMap escape ++ '"' :: rest) = some (value, rest) := by
  induction value with
  | nil => rfl
  | cons c value ih =>
    rw [List.flatMap_cons, List.append_assoc, readQuoted_escape, ih]
    rfl

/-- A run of name characters ends where another one follows. -/
lemma span_name {name : List Char} (hname : ∀ c ∈ name, isNameChar c = true) {c : Char}
    (hc : isNameChar c = false) (rest : List Char) :
    (name ++ c :: rest).takeWhile isNameChar = name ∧
      (name ++ c :: rest).dropWhile isNameChar = c :: rest := by
  rw [List.takeWhile_append_of_pos hname, List.dropWhile_append_of_pos hname,
    List.takeWhile_cons_of_neg (by rw [hc]; exact Bool.false_ne_true),
    List.dropWhile_cons_of_neg (by rw [hc]; exact Bool.false_ne_true), List.append_nil]
  exact ⟨rfl, rfl⟩

lemma readLabel_labelText {label : String × String}
    (hkey : ∀ c ∈ label.1.toList, isNameChar c = true) (rest : List Char) :
    readLabel (labelText label ++ rest) = some (label, rest) := by
  have htext : labelText label ++ rest =
      label.1.toList ++ '=' :: '"' :: (label.2.toList.flatMap escape ++ '"' :: rest) := by
    simp only [labelText, List.append_assoc, List.cons_append, List.nil_append]
  have heq : isNameChar '=' = false := rfl
  obtain ⟨htake, hdrop⟩ := span_name hkey heq
    ('"' :: (label.2.toList.flatMap escape ++ '"' :: rest))
  unfold readLabel
  rw [htext, hdrop, htake]
  change (readQuoted _).map _ = _
  rw [readQuoted_escaped, Option.map_some, String.ofList_toList, String.ofList_toList]

lemma readLabels_labelsText {label : String × String} {labels : List (String × String)}
    (hkeys : ∀ l ∈ label :: labels, ∀ c ∈ l.1.toList, isNameChar c = true) (rest : List Char)
    {fuel : ℕ} (hfuel : labels.length < fuel) :
    readLabels fuel (labelsText (label :: labels) ++ '\x7d' :: rest) =
      some (label :: labels, rest) := by
  induction labels generalizing label fuel with
  | nil =>
    obtain ⟨fuel, rfl⟩ : ∃ k, fuel = k + 1 := ⟨fuel - 1, by omega⟩
    rw [List.forall_mem_cons] at hkeys
    rw [readLabels, labelsText, List.flatMap_nil, List.append_nil, readLabel_labelText hkeys.1]
    rfl
  | cons next labels ih =>
    obtain ⟨fuel, rfl⟩ : ∃ k, fuel = k + 1 := ⟨fuel - 1, by omega⟩
    rw [List.length_cons] at hfuel
    have hrest := ih (List.forall_mem_cons.mp hkeys).2 (by omega : labels.length < fuel)
    have htext : labelsText (label :: next :: labels) ++ '\x7d' :: rest =
        labelText label ++ ',' :: (labelsText (next :: labels) ++ '\x7d' :: rest) := by
      simp only [labelsText, List.flatMap_cons, List.append_assoc, List.cons_append]
    rw [readLabels, htext, readLabel_labelText (List.forall_mem_cons.mp hkeys).1]
    change (readLabels fuel _).map _ = _
    rw [hrest]
    rfl

lemma length_le_labelsText (label : String × String) (labels : List (String × String)) :
    labels.length < (labelsText (label :: labels)).length := by
  have hflat : labels.length ≤ (labels.flatMap fun l => ',' :: labelText l).length := by
    induction labels with
    | nil => exact le_rfl
    | cons l labels ih =>
      rw [List.flatMap_cons, List.length_append, List.length_cons, List.length_cons]
      omega
  rw [labelsText, labelText, List.length_append, List.length_append, List.length_cons]
  omega

/-- The text of a label starts with its key or with the equals sign. -/
lemma head_labelsText_ne {label : String × String}
    (hkey : ∀ c ∈ label.1.toList, isNameChar c = true) {labels : List (String × String)}
    (tail rest : List Char) (h : labelsText (label :: labels) ++ tail = '\x7d' :: rest) :
    False := by
  rw [labelsText, labelText] at h
  cases hname : label.1.toList with
  | nil =>
    rw [hname] at h
    exact absurd (List.cons.inj h).1 (by decide)
  | cons c name =>
    rw [hname] at h hkey
    have hc := hkey c List.mem_cons_self
    rw [(List.cons.inj h).1] at hc
    exact absurd hc (by decide)

lemma readLabelSet_labelsText {labels : List (String × String)}
    (hkeys : ∀ l ∈ labels, ∀ c ∈ l.1.toList, isNameChar c = true) (rest : List Char) :
    readLabelSet ('\x7b' :: (labelsText labels ++ '\x7d' :: rest)) = some (labels, rest) := by
  cases labels with
  | nil => rfl
  | cons label labels =>
    have hfuel := length_le_labelsText label labels
    rw [readLabelSet.eq_2 _ (head_labelsText_ne (List.forall_mem_cons.mp hkeys).1 _)]
    refine readLabels_labelsText hkeys rest ?_
    rw [List.length_append]
    omega

/-- The form without labels. -/
lemma readSample_plain {name : String} (hname : ∀ c ∈ name.toList, isNameChar c = true)
    (value : String) :
    readSample (name.toList ++ ' ' :: value.toList) = some ⟨name, [], value⟩ := by
  have hspace : isNameChar ' ' = false := rfl
  obtain ⟨htake, hdrop⟩ := span_name hname hspace value.toList
  unfold readSample
  rw [hdrop, htake]
  change some (Sample.mk _ _ _) = _
  rw [String.ofList_toList, String.ofList_toList]

theorem readSample_sampleText {s : Sample} (h : s.WellFormed) :
    readSample (sampleText s) = some s := by
  have hbrace : isNameChar '\x7b' = false := rfl
  obtain ⟨htake, hdrop⟩ := span_name h.name hbrace
    (labelsText s.labels ++ '\x7d' :: ' ' :: s.value.toList)
  unfold readSample sampleText
  rw [hdrop, htake, readLabelSet_labelsText h.keys]
  change some (Sample.mk _ _ _) = some s
  rw [String.ofList_toList, String.ofList_toList]

lemma lines_append {text text' : List Char} {ls ls' : List (List Char)} (h : lines text = some ls)
    (h' : lines text' = some ls') : lines (text ++ text') = some (ls ++ ls') := by
  induction text generalizing ls with
  | nil =>
    cases h
    exact h'
  | cons c text ih =>
    rw [lines] at h
    rw [List.cons_append, lines]
    split_ifs at h ⊢ with hfeed
    · obtain ⟨rest, hrest, rfl⟩ := Option.map_eq_some_iff.mp h
      rw [ih hrest]
      rfl
    · split at h
      · rename_i l rest hrest
        cases h
        rw [ih hrest]
        rfl
      · cases h

lemma lines_line {line : List Char} (h : '\n' ∉ line) : lines (line ++ ['\n']) = some [line] := by
  induction line with
  | nil => rfl
  | cons c line ih =>
    rw [List.mem_cons, not_or] at h
    rw [List.cons_append, lines, if_neg (Ne.symm h.1), ih h.2]

/-- One more line is one more line, whatever came before. -/
lemma lines_append_line {text : List Char} {ls : List (List Char)} (h : lines text = some ls)
    {line : List Char} (hline : '\n' ∉ line) :
    lines (text ++ (line ++ ['\n'])) = some (ls ++ [line]) :=
  lines_append h (lines_line hline)

lemma notMem_escape (c : Char) : '\n' ∉ escape c := by
  unfold escape
  split_ifs with hback hquote hfeed
  · decide
  · decide
  · decide
  · rw [List.mem_singleton]
    exact Ne.symm hfeed

lemma notMem_of_isNameChar {name : List Char} (h : ∀ c ∈ name, isNameChar c = true) :
    '\n' ∉ name :=
  fun hmem => absurd (h _ hmem) (by decide)

lemma notMem_labelText {label : String × String}
    (hkey : ∀ c ∈ label.1.toList, isNameChar c = true) : '\n' ∉ labelText label := by
  have hvalue : '\n' ∉ label.2.toList.flatMap escape := by
    rw [List.mem_flatMap]
    rintro ⟨c, -, hc⟩
    exact notMem_escape c hc
  simp only [labelText, List.mem_append, List.mem_cons, List.not_mem_nil, not_or]
  exact ⟨notMem_of_isNameChar hkey, by decide, by decide, hvalue, by decide, not_false⟩

lemma notMem_labelsText {labels : List (String × String)}
    (hkeys : ∀ l ∈ labels, ∀ c ∈ l.1.toList, isNameChar c = true) : '\n' ∉ labelsText labels := by
  cases labels with
  | nil => exact List.not_mem_nil
  | cons label labels =>
    rw [List.forall_mem_cons] at hkeys
    rw [labelsText, List.mem_append, List.mem_flatMap, not_or]
    refine ⟨notMem_labelText hkeys.1, ?_⟩
    rintro ⟨l, hl, hmem⟩
    rw [List.mem_cons, or_iff_right (by decide)] at hmem
    exact notMem_labelText (hkeys.2 l hl) hmem

/-- The line of a sample is one line. -/
lemma Sample.WellFormed.notMem {s : Sample} (h : s.WellFormed) : '\n' ∉ sampleText s := by
  simp only [sampleText, List.mem_append, List.mem_cons, not_or]
  exact ⟨notMem_of_isNameChar h.name, by decide, notMem_labelsText h.keys, by decide, by decide,
    h.value⟩

/-- A line that starts with a name or with what may follow a name is no comment. -/
lemma not_isComment {name : List Char} (hname : ∀ c ∈ name, isNameChar c = true) {c : Char}
    (hc : c ≠ '#') (rest : List Char) : isComment (name ++ c :: rest) = false := by
  unfold isComment
  cases name with
  | nil =>
    rw [List.nil_append, List.head?_cons, beq_eq_false_iff_ne]
    exact fun h => hc (Option.some.inj h)
  | cons d name =>
    rw [List.cons_append, List.head?_cons, beq_eq_false_iff_ne]
    rintro ⟨⟩
    exact absurd (hname _ List.mem_cons_self) (by decide)

lemma Sample.WellFormed.not_isComment {s : Sample} (h : s.WellFormed) :
    isComment (sampleText s) = false := by
  have hbrace : '\x7b' ≠ '#' := by decide
  exact Exposition.not_isComment h.name hbrace _

/-- Appending the line of a sample appends that sample and nothing else. -/
lemma readText_append_line {text : List Char} {samples : List Sample}
    (h : readText text = some samples) {line : List Char} (hline : '\n' ∉ line)
    (hcomment : isComment line = false) {s : Sample} (hs : readSample line = some s) :
    readText (text ++ (line ++ ['\n'])) = some (samples ++ [s]) := by
  obtain ⟨ls, hls, hsamples⟩ := Option.bind_eq_some_iff.mp h
  refine Option.bind_eq_some_iff.mpr ⟨_, lines_append_line hls hline, ?_⟩
  rw [List.filter_append, List.filter_singleton, hcomment, List.mapM_append, hsamples]
  change (do let r ← [line].mapM readSample; some (samples ++ r)) = _
  rw [List.mapM_cons, hs]
  rfl

theorem readText_append_comment {text : List Char} {samples : List Sample}
    (h : readText text = some samples) {line : List Char} (hline : '\n' ∉ line)
    (hcomment : isComment line = true) : readText (text ++ (line ++ ['\n'])) = some samples := by
  obtain ⟨ls, hls, hsamples⟩ := Option.bind_eq_some_iff.mp h
  refine Option.bind_eq_some_iff.mpr ⟨_, lines_append_line hls hline, ?_⟩
  rw [List.filter_append, List.filter_singleton, hcomment]
  exact hsamples ▸ congrArg (List.mapM readSample) (List.append_nil _)

end Deltio.Lib.Exposition
