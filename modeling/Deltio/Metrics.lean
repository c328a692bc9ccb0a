import Deltio.Lib.Exposition

namespace Deltio

open Lib Exposition

/-- Escapes a label value: backslash, double quote and line feed. -/
def escapeLabelValue (out value : String) : String :=
  value.toList.foldl (fun out c =>
    match c with
    | '\\' => out ++ "\\\\"
    | '"' => out ++ "\\\""
    | '\n' => out ++ "\\n"
    | _ => out.push c) out

structure PromText where
  buf : String
deriving DecidableEq

namespace PromText

def new : PromText := ⟨""⟩

def intoString (p : PromText) : String := p.buf

def family (p : PromText) (name metricType help : String) : PromText :=
  let buf := p.buf ++ ("# HELP " ++ name ++ " " ++ help ++ "\n")
  ⟨buf ++ ("# TYPE " ++ name ++ " " ++ metricType ++ "\n")⟩

def sample (p : PromText) (name value : String) : PromText :=
  ⟨p.buf ++ (name ++ " " ++ value ++ "\n")⟩

def writeLabels (i : ℕ) (buf : String) : List (String × String) → String
  | [] => buf
  | (key, val) :: labels =>
    let buf := if i > 0 then buf.push ',' else buf
    let buf := (buf ++ key) ++ "=\""
    let buf := (escapeLabelValue buf val).push '"'
    writeLabels (i + 1) buf labels

def labeled (p : PromText) (name : String) (labels : List (String × String)) (value : String) :
    PromText :=
  let buf := (p.buf ++ name).push '\x7b'
  let buf := writeLabels 0 buf labels
  ⟨buf ++ ("\x7d " ++ value ++ "\n")⟩

end PromText

lemma toList_escapeLabelValue (out value : String) :
    (escapeLabelValue out value).toList = out.toList ++ value.toList.flatMap escape := by
  unfold escapeLabelValue
  induction value.toList generalizing out with
  | nil => rw [List.flatMap_nil, List.append_nil, List.foldl_nil]
  | cons c chars ih =>
    rw [List.foldl_cons, ih, List.flatMap_cons, ← List.append_assoc]
    congr 1
    split
    · rw [String.toList_append]
      rfl
    · rw [String.toList_append]
      rfl
    · rw [String.toList_append]
      rfl
    · rename_i hback hquote hfeed
      rw [String.toList_push, escape, if_neg hback, if_neg hquote, if_neg hfeed]

namespace PromText

lemma toList_writeLabels_succ (i : ℕ) (buf : String) (labels : List (String × String)) :
    (writeLabels (i + 1) buf labels).toList =
      buf.toList ++ labels.flatMap fun label => ',' :: labelText label := by
  induction labels generalizing i buf with
  | nil => rw [writeLabels, List.flatMap_nil, List.append_nil]
  | cons label labels ih =>
    rw [writeLabels, ih]
    simp [toList_escapeLabelValue, labelText]

lemma toList_writeLabels (buf : String) (labels : List (String × String)) :
    (writeLabels 0 buf labels).toList = buf.toList ++ labelsText labels := by
  cases labels with
  | nil => rw [writeLabels, labelsText, List.append_nil]
  | cons label labels =>
    rw [writeLabels, toList_writeLabels_succ]
    simp [toList_escapeLabelValue, labelText, labelsText]

lemma toList_labeled (p : PromText) (name : String) (labels : List (String × String))
    (value : String) : (p.labeled name labels value).buf.toList =
      p.buf.toList ++ (sampleText ⟨name, labels, value⟩ ++ ['\n']) := by
  unfold labeled
  simp [toList_writeLabels, sampleText]

/-- A labelled sample is one line that reads back as the name, the labels and the value, so
that a page gets this sample and no other, and no other sample has the same line. -/
theorem labeled_line_reads_back (p : PromText) (name : String) (labels : List (String × String))
    (value : String) (h : Sample.WellFormed ⟨name, labels, value⟩) :
    (∃ line, (p.labeled name labels value).buf = p.buf ++ String.ofList (line ++ ['\n']) ∧
      '\n' ∉ line ∧ readSample line = some ⟨name, labels, value⟩) ∧
    (∀ samples, readText p.buf.toList = some samples →
      readText (p.labeled name labels value).buf.toList =
        some (samples ++ [⟨name, labels, value⟩])) ∧
    ∀ name' labels' value', Sample.WellFormed ⟨name', labels', value'⟩ →
      p.labeled name' labels' value' = p.labeled name labels value →
        name' = name ∧ labels' = labels ∧ value' = value := by
  refine ⟨⟨_, ?_, h.notMem, readSample_sampleText h⟩, ?_, ?_⟩
  · apply String.toList_injective
    rw [toList_labeled, String.toList_append, String.toList_ofList]
  · intro samples hsamples
    rw [toList_labeled]
    exact readText_append_line hsamples h.notMem h.not_isComment (readSample_sampleText h)
  · intro name' labels' value' h' hsame
    have htext := congrArg (fun q : PromText => q.buf.toList) hsame
    rw [toList_labeled, toList_labeled] at htext
    have hline := List.append_cancel_right (List.append_cancel_left htext)
    have hsample := (readSample_sampleText h').symm.trans
      ((congrArg readSample hline).trans (readSample_sampleText h))
    exact ⟨congrArg Sample.name (Option.some.inj hsample),
      congrArg Sample.labels (Option.some.inj hsample),
      congrArg Sample.value (Option.some.inj hsample)⟩

theorem hostile_topic_reads_back :
    let name := "deltio_topic_published_total"
    let labels := [("topic", "projects/p/topics/\"\x7d 1\nup 1,\\")]
    ∃ line, (new.labeled name labels "7").buf = new.buf ++ String.ofList (line ++ ['\n']) ∧
      '\n' ∉ line ∧ readSample line = some ⟨name, labels, "7"⟩ := by
  have hname : ∀ c ∈ "deltio_topic_published_total".toList, isNameChar c = true :=
    List.all_eq_true.mp (by decide)
  have hkey : ∀ c ∈ "topic".toList, isNameChar c = true := List.all_eq_true.mp (by decide)
  have hlabels : ∀ label ∈ [("topic", "projects/p/topics/\"\x7d 1\nup 1,\\")],
      ∀ c ∈ label.1.toList, isNameChar c = true := by
    intro label hlabel
    rw [List.mem_singleton.mp hlabel]
    exact hkey
  exact (labeled_line_reads_back new _ _ _ ⟨hname, hlabels, by decide⟩).1

end PromText

inductive PromCall where
  | family (name metricType help : String)
  | sample (name value : String)
  | labeled (name : String) (labels : List (String × String)) (value : String)
deriving DecidableEq

namespace PromCall

def write (p : PromText) : PromCall → PromText
  | family name metricType help => p.family name metricType help
  | sample name value => p.sample name value
  | labeled name labels value => p.labeled name labels value

def samples : PromCall → List Sample
  | family _ _ _ => []
  | sample name value => [⟨name, [], value⟩]
  | labeled name labels value => [⟨name, labels, value⟩]

/-- Names are names, and the texts that are not escaped are on one line. -/
def WellFormed : PromCall → Prop
  | family name metricType help =>
    '\n' ∉ name.toList ∧ '\n' ∉ metricType.toList ∧ '\n' ∉ help.toList
  | sample name value => Sample.WellFormed ⟨name, [], value⟩
  | labeled name labels value => Sample.WellFormed ⟨name, labels, value⟩

/-- Each call appends its samples. -/
lemma readText_write {p : PromText} {written : List Sample}
    (h : readText p.buf.toList = some written) {call : PromCall} (hcall : call.WellFormed) :
    readText (call.write p).buf.toList = some (written ++ call.samples) := by
  cases call with
  | family name metricType help =>
    obtain ⟨hname, htype, hhelp⟩ := hcall
    have hfirst : '\n' ∉ "# HELP ".toList ++ (name.toList ++ ' ' :: help.toList) := by
      simp [hname, hhelp]
    have hsecond : '\n' ∉ "# TYPE ".toList ++ (name.toList ++ ' ' :: metricType.toList) := by
      simp [hname, htype]
    have htext : (p.family name metricType help).buf.toList =
        p.buf.toList ++ (("# HELP ".toList ++ (name.toList ++ ' ' :: help.toList)) ++ ['\n']) ++
          (("# TYPE ".toList ++ (name.toList ++ ' ' :: metricType.toList)) ++ ['\n']) := by
      simp [PromText.family]
    rw [write, htext, samples, List.append_nil]
    exact readText_append_comment (readText_append_comment h hfirst rfl) hsecond rfl
  | sample name value =>
    have hline : '\n' ∉ name.toList ++ ' ' :: value.toList := by
      rw [List.mem_append, List.mem_cons, not_or, not_or]
      exact ⟨notMem_of_isNameChar hcall.name, by decide, hcall.value⟩
    have htext : (p.sample name value).buf.toList =
        p.buf.toList ++ ((name.toList ++ ' ' :: value.toList) ++ ['\n']) := by
      simp [PromText.sample]
    have hspace : ' ' ≠ '#' := by decide
    rw [write, htext]
    exact readText_append_line h hline (not_isComment hcall.name hspace _)
      (readSample_plain hcall.name value)
  | labeled name labels value =>
    rw [write, PromText.toList_labeled]
    exact readText_append_line h hcall.notMem hcall.not_isComment (readSample_sampleText hcall)

/-- A page reads back as the samples of its calls, in order. -/
theorem readText_page (calls : List PromCall) (hcalls : ∀ call ∈ calls, call.WellFormed) :
    readText (calls.foldl write PromText.new).intoString.toList = some (calls.flatMap samples) := by
  have hrun : ∀ (p : PromText) (written : List Sample), readText p.buf.toList = some written →
      readText (calls.foldl write p).buf.toList = some (written ++ calls.flatMap samples) := by
    induction calls with
    | nil =>
      intro p written h
      rw [List.foldl_nil, List.flatMap_nil, List.append_nil, h]
    | cons call calls ih =>
      intro p written h
      rw [List.forall_mem_cons] at hcalls
      rw [List.foldl_cons, ih hcalls.2 _ _ (readText_write h hcalls.1), List.flatMap_cons,
        List.append_assoc]
  exact hrun PromText.new [] rfl

end PromCall

end Deltio
