import Deltio.FilterLiterals

namespace Deltio

open Lib Result

/-- The documented keys: `[A-Za-z_][A-Za-z0-9_-]*`. -/
def isDocumentedKey (key : String) : Bool :=
  match key.toList with
  | [] => false
  | c :: cs => (c.isAlpha || c == '_') && cs.all fun c => c.isAlphanum || c == '_' || c == '-'

def Expr.keys : Expr → List String
  | .eq key _ _ => [key]
  | .hasPrefix key _ => [key]
  | .hasAttr key => [key]
  | .and l r => l.keys ++ r.keys
  | .or l r => l.keys ++ r.keys
  | .not inner => inner.keys

def Token.keys : Token → List String
  | .attribute key => [key]
  | .attributeHas key => [key]
  | _ => []

def keysOf (ts : Tokens) : List String := ts.flatMap fun t => t.1.keys

/-- The parser neither drops nor makes up a key. -/
lemma Derives.keys {level : Level} {ts : Tokens} {e : Expr} (h : Derives level ts e) :
    e.keys = keysOf ts := by
  unfold keysOf
  induction h with
  | orOfAnd _ ih => exact ih
  | or p _ _ ihl ihr =>
    rw [Expr.keys, ihl, ihr, List.flatMap_append, List.flatMap_cons]
    rfl
  | andOfNot _ ih => exact ih
  | and p _ _ ihl ihr =>
    rw [Expr.keys, ihl, ihr, List.flatMap_append, List.flatMap_cons]
    rfl
  | not p _ ih => exact ih
  | notOfPrimary _ ih => exact ih
  | paren p q _ ih =>
    rw [ih, List.flatMap_cons, List.flatMap_append]
    exact (List.append_nil _).symm
  | eq | notEq | hasAttr | hasPrefix => rfl

/-- A place in the text: outside of the string literals, there right after a dot or colon, in a
literal, and in a literal right after a backslash. -/
inductive Place where
  | outside
  | separator
  | literal
  | escaped
deriving DecidableEq

def Place.next : Place → UInt8 → Place
  | .outside, b | .separator, b =>
    if b = byteOf '"' then .literal
    else if b = byteOf '.' ∨ b = byteOf ':' then .separator
    else .outside
  | .literal, b =>
    if b = byteOf '"' then .outside else if b = byteOf '\\' then .escaped else .literal
  | .escaped, _ => .literal

def isDigitOrDash (b : UInt8) : Bool := (byteChar b).isDigit || b == byteOf '-'

/-- Somewhere in the text a digit or `-` follows a separator. -/
def digitAfterSeparator : Place → List UInt8 → Bool
  | _, [] => false
  | place, b :: bytes =>
    place == .separator && isDigitOrDash b || digitAfterSeparator (place.next b) bytes

lemma digitAfterSeparator_append (place : Place) (bytes bytes' : List UInt8) :
    digitAfterSeparator place (bytes ++ bytes') = (digitAfterSeparator place bytes ||
      digitAfterSeparator (bytes.foldl Place.next place) bytes') := by
  induction bytes generalizing place with
  | nil => rfl
  | cons b bytes ih =>
    rw [List.cons_append, digitAfterSeparator, ih, ← Bool.or_assoc]
    rfl

/-- A stretch of the text that starts and ends outside of the literals, and in which a digit or
`-` follows a separator exactly if one of these keys is not a documented one. -/
structure Scanned (bytes : List UInt8) (keys : List String) : Prop where
  outside : bytes.foldl Place.next .outside = .outside
  keys : digitAfterSeparator .outside bytes = keys.any fun key => !isDocumentedKey key

namespace Scanned

lemma nil : Scanned [] [] := ⟨rfl, rfl⟩

lemma append {bytes bytes' : List UInt8} {keys keys' : List String} (h : Scanned bytes keys)
    (h' : Scanned bytes' keys') : Scanned (bytes ++ bytes') (keys ++ keys') := by
  constructor
  · rw [List.foldl_append, h.outside, h'.outside]
  · rw [digitAfterSeparator_append, h.outside, h.keys, h'.keys, List.any_append]

end Scanned

def isPlain (b : UInt8) : Bool := b != byteOf '"' && b != byteOf '.' && b != byteOf ':'

lemma Place.next_plain {b : UInt8} (h : isPlain b = true) :
    Place.next .outside b = .outside ∧ Place.next .separator b = .outside := by
  unfold isPlain at h
  simp only [Bool.and_eq_true, bne_iff_ne] at h
  obtain ⟨⟨hquote, hdot⟩, hcolon⟩ := h
  unfold Place.next
  dsimp only
  rw [if_neg hquote, if_neg (not_or.mpr ⟨hdot, hcolon⟩)]
  exact ⟨rfl, rfl⟩

lemma scanned_plain {bytes : List UInt8} (h : ∀ b ∈ bytes, isPlain b = true) :
    Scanned bytes [] := by
  induction bytes with
  | nil => exact Scanned.nil
  | cons b bytes ih =>
    have hb := (Place.next_plain (h b List.mem_cons_self)).1
    have hbytes := ih fun b' hb' => h b' (List.mem_cons_of_mem _ hb')
    constructor
    · rw [List.foldl_cons, hb, hbytes.outside]
    · rw [digitAfterSeparator, hb, hbytes.keys]
      rfl

/-- A literal ends outside, and no separator is seen in it. -/
lemma scanString_spec {bytes : List UInt8} {r : List Char × ℕ} (h : scanString bytes = .ok r) :
    ∃ body rest, bytes = body ++ rest ∧ body.length = r.2 ∧
      body.foldl Place.next .literal = .outside ∧ digitAfterSeparator .literal body = false := by
  induction bytes using scanString.induct generalizing r with
  | case1 => cases h
  | case2 =>
    cases h
    exact ⟨[byteOf '"'], [], rfl, rfl, rfl, rfl⟩
  | case3 b hb =>
    rw [scanString, if_neg hb] at h
    cases h
  | case4 esc rest =>
    cases h
    exact ⟨[byteOf '"'], esc :: rest, rfl, rfl, rfl, rfl⟩
  | case5 rest hne ih =>
    rw [scanString, if_neg hne, if_pos rfl, if_pos rfl] at h
    obtain ⟨r', hr', hret⟩ := bind_eq_ok.mp h
    obtain ⟨body, rest', rfl, hlen, hplace, hdigit⟩ := ih hr'
    cases hret
    exact ⟨byteOf '\\' :: byteOf '"' :: body, rest', rfl, congrArg (· + 2) hlen, hplace, hdigit⟩
  | case6 rest hne hne' ih =>
    rw [scanString, if_neg hne, if_pos rfl, if_neg hne', if_pos rfl] at h
    obtain ⟨r', hr', hret⟩ := bind_eq_ok.mp h
    obtain ⟨body, rest', rfl, hlen, hplace, hdigit⟩ := ih hr'
    cases hret
    exact ⟨byteOf '\\' :: byteOf '\\' :: body, rest', rfl, congrArg (· + 2) hlen, hplace, hdigit⟩
  | case7 esc rest hne hq hs =>
    rw [scanString, if_neg hne, if_pos rfl, if_neg hq, if_neg hs] at h
    cases h
  | case8 b esc rest hq hs ih =>
    rw [scanString, if_neg hq, if_neg hs] at h
    obtain ⟨r', hr', hret⟩ := bind_eq_ok.mp h
    obtain ⟨body, rest', hbytes, hlen, hplace, hdigit⟩ := ih hr'
    have hnext : Place.next .literal b = .literal := by
      unfold Place.next
      dsimp only
      rw [if_neg hq, if_neg hs]
    cases hret
    refine ⟨b :: body, rest', congrArg (b :: ·) hbytes, congrArg (· + 1) hlen, ?_, ?_⟩
    · rw [List.foldl_cons, hnext, hplace]
    · rw [digitAfterSeparator, hnext, hdigit]
      rfl

lemma isPlain_of_isWordByte {b : UInt8} (h : isWordByte b = true) : isPlain b = true := by
  have hne : ∀ b', isWordByte b' = false → b ≠ b' := by
    rintro b' hb' rfl
    rw [h] at hb'
    cases hb'
  unfold isPlain
  simp only [Bool.and_eq_true, bne_iff_ne]
  exact ⟨⟨hne _ (by decide), hne _ (by decide)⟩, hne _ (by decide)⟩

/-- The word bytes that a documented key starts with are the letters and `_`. -/
lemma isDigitOrDash_eq {b : UInt8} (h : isWordByte b = true) :
    isDigitOrDash b = !((byteChar b).isAlpha || byteChar b == '_') := by
  have hall : ∀ n : Fin 256, isWordByte (UInt8.ofNat n) = true → isDigitOrDash (UInt8.ofNat n) =
      !((byteChar (UInt8.ofNat n)).isAlpha || byteChar (UInt8.ofNat n) == '_') := by
    decide +kernel
  have hb := hall ⟨b.toNat, b.toNat_lt⟩
  rw [UInt8.ofNat_toNat] at hb
  exact hb h

/-- Of the keys the tokenizer reads, only the first byte decides. -/
lemma isDocumentedKey_asciiText {b : UInt8} {key : List UInt8}
    (h : ∀ b' ∈ b :: key, isWordByte b' = true) :
    isDocumentedKey (asciiText (b :: key)) = !isDigitOrDash b := by
  have hrest : (key.map byteChar).all (fun c => c.isAlphanum || c == '_' || c == '-') = true := by
    rw [List.all_map, List.all_eq_true]
    intro b' hb'
    have hword := h b' (List.mem_cons_of_mem b hb')
    unfold isWordByte at hword
    simp only [Bool.or_eq_true, beq_iff_eq] at hword
    rcases hword with (halnum | rfl) | rfl
    · simp only [Function.comp_apply, halnum, Bool.true_or]
    · decide
    · decide
  unfold isDocumentedKey
  rw [toList_asciiText, List.map_cons]
  dsimp only
  rw [hrest, Bool.and_true, isDigitOrDash_eq (h b List.mem_cons_self), Bool.not_not]

/-- After the separator the first byte of the key is looked at. -/
lemma scanned_attributes {sep : UInt8} (hsep : sep = byteOf '.' ∨ sep = byteOf ':')
    {word key : List UInt8} (hword : ∀ b ∈ word, isWordByte b = true) (hne : key ≠ [])
    (hkey : ∀ b ∈ key, isWordByte b = true) :
    Scanned (word ++ sep :: key) [asciiText key] := by
  refine (scanned_plain fun b hb => isPlain_of_isWordByte (hword b hb)).append ?_
  obtain ⟨b, key, rfl⟩ := List.exists_cons_of_ne_nil hne
  have hplace : Place.next .outside sep = .separator := by
    rcases hsep with rfl | rfl
    · rfl
    · rfl
  have hb := (Place.next_plain (isPlain_of_isWordByte (hkey b List.mem_cons_self))).2
  have hrest := scanned_plain fun b' hb' =>
    isPlain_of_isWordByte (hkey b' (List.mem_cons_of_mem b hb'))
  constructor
  · rw [List.foldl_cons, hplace, List.foldl_cons, hb, hrest.outside]
  · rw [digitAfterSeparator, digitAfterSeparator, hplace, hb, hrest.keys, List.any_cons,
      isDocumentedKey_asciiText hkey, Bool.not_not]
    rfl

/-- A word gives a token without a key, or is followed by a separator and the key. -/
lemma scanWord_cases {start : ℕ} {bytes : List UInt8} {r : Token × ℕ}
    (h : scanWord start bytes = .ok r) :
    (r.1.keys = [] ∧ r.2 = (bytes.takeWhile isWordByte).length) ∨
    ∃ sep after, bytes.dropWhile isWordByte = sep :: after ∧
      (sep = byteOf '.' ∨ sep = byteOf ':') ∧ after.takeWhile isWordByte ≠ [] ∧
      r.1.keys = [asciiText (after.takeWhile isWordByte)] ∧
      r.2 = (bytes.takeWhile isWordByte).length + 1 + (after.takeWhile isWordByte).length := by
  unfold scanWord at h
  dsimp only at h
  rcases ite_eq_iff.mp h with ⟨-, h⟩ | ⟨-, h⟩
  · cases h
    exact .inl ⟨rfl, rfl⟩
  rcases ite_eq_iff.mp h with ⟨-, h⟩ | ⟨-, h⟩
  · cases h
    exact .inl ⟨rfl, rfl⟩
  rcases ite_eq_iff.mp h with ⟨-, h⟩ | ⟨-, h⟩
  · cases h
    exact .inl ⟨rfl, rfl⟩
  rcases ite_eq_iff.mp h with ⟨-, h⟩ | ⟨-, h⟩
  · right
    split at h
    · cases h
    · next sep after hrest =>
      split_ifs at h with hsep hempty hdot
      · cases h
        exact ⟨sep, after, hrest, .inl hdot, hempty, rfl, rfl⟩
      · have hcolon : sep = byteOf ':' := by
          by_contra hno
          exact hsep ⟨hdot, hno⟩
        cases h
        exact ⟨sep, after, hrest, .inr hcolon, hempty, rfl, rfl⟩
  · cases h
    exact .inl ⟨rfl, rfl⟩

/-- The bytes of a word and of its key, after the first. -/
lemma scanWord_spec {start : ℕ} {c : UInt8} {bytes : List UInt8} {r : Token × ℕ}
    (hc : isWordByte c = true) (h : scanWord start (c :: bytes) = .ok r) :
    ∃ piece rest, bytes = piece ++ rest ∧ piece.length + 1 = r.2 ∧
      Scanned (c :: piece) r.1.keys := by
  have hsplit := (List.takeWhile_append_dropWhile (p := isWordByte) (l := bytes)).symm
  have hword : ∀ b ∈ c :: bytes.takeWhile isWordByte, isWordByte b = true := by
    rw [← List.takeWhile_cons_of_pos hc]
    exact fun b hb => List.mem_takeWhile_imp hb
  have hcases := scanWord_cases h
  rw [List.takeWhile_cons_of_pos hc, List.dropWhile_cons_of_pos hc] at hcases
  rcases hcases with ⟨hkeys, hlen⟩ | ⟨sep, after, hrest, hsep, hempty, hkeys, hlen⟩
  · rw [hkeys]
    exact ⟨_, _, hsplit, hlen.symm,
      scanned_plain fun b hb => isPlain_of_isWordByte (hword b hb)⟩
  · rw [hkeys]
    refine ⟨bytes.takeWhile isWordByte ++ sep :: after.takeWhile isWordByte,
      after.dropWhile isWordByte, ?_, ?_,
      scanned_attributes hsep hword hempty fun b hb => List.mem_takeWhile_imp hb⟩
    · rw [List.append_assoc, List.cons_append, List.takeWhile_append_dropWhile, ← hrest]
      exact hsplit
    · rw [hlen, List.length_append, List.length_cons, List.length_cons]
      omega

/-- The tokenizer has read a stretch of the text, with at most one token, and goes on after it. -/
def LexStep (i : ℕ) (bytes : List UInt8) (ts : Tokens) : Prop :=
  ∃ piece rest found ts', bytes = piece ++ rest ∧ 0 < piece.length ∧ ts = found ++ ts' ∧
    Scanned piece (keysOf found) ∧ tokenizeFrom (i + piece.length) 0 rest = .ok ts'

/-- A token is emitted, and its bytes after the first are skipped. -/
lemma lexStep_emit {i : ℕ} {c : UInt8} {piece rest : List UInt8} {t : Token} {ts : Tokens}
    (hscanned : Scanned (c :: piece) t.keys)
    (h : (tokenizeFrom (i + 1) piece.length (piece ++ rest) >>= fun ts => pure ((t, i) :: ts)) =
      .ok ts) : LexStep i (c :: (piece ++ rest)) ts := by
  obtain ⟨ts', hts', hret⟩ := bind_eq_ok.mp h
  cases hret
  rw [tokenizeFrom_skip, Nat.add_right_comm] at hts'
  refine ⟨c :: piece, rest, [(t, i)], ts', rfl, Nat.succ_pos _, rfl, ?_, hts'⟩
  rw [keysOf, List.flatMap_singleton]
  exact hscanned

lemma lexStep_mark {i : ℕ} {c : UInt8} {rest : List UInt8} {t : Token} {ts : Tokens}
    (hc : isPlain c = true) (ht : t.keys = [])
    (h : (tokenizeFrom (i + 1) 0 rest >>= fun ts => pure ((t, i) :: ts)) = .ok ts) :
    LexStep i (c :: rest) ts := by
  change LexStep i (c :: ([] ++ rest)) ts
  refine lexStep_emit ?_ h
  rw [ht]
  exact scanned_plain fun b hb => List.mem_singleton.mp hb ▸ hc

lemma isWordByte_of_start {c : UInt8} (h : (isAsciiAlphabetic c || c == byteOf '_') = true) :
    isWordByte c = true := by
  unfold isWordByte
  rcases Bool.or_eq_true_iff.mp h with halpha | hunderscore
  · rw [show (byteChar c).isAlphanum = true from Bool.or_eq_true_iff.mpr (.inl halpha)]
    rfl
  · rw [hunderscore, Bool.or_true]
    rfl

lemma tokenizeFrom_step {i : ℕ} {c : UInt8} {bytes : List UInt8} {ts : Tokens}
    (h : tokenizeFrom i 0 (c :: bytes) = .ok ts) : LexStep i (c :: bytes) ts := by
  unfold tokenizeFrom at h
  dsimp only at h
  -- the branches in the order of the source; the last one is the error
  rcases ite_eq_iff.mp h with ⟨hspace, h⟩ | ⟨-, h⟩
  · refine ⟨[c], bytes, [], ts, rfl, Nat.succ_pos 0, rfl, ?_, h⟩
    refine scanned_plain fun b hb => ?_
    rw [List.mem_singleton.mp hb]
    rcases hspace with rfl | rfl | rfl | rfl
    all_goals decide
  rcases ite_eq_iff.mp h with ⟨hl, h⟩ | ⟨-, h⟩
  · exact lexStep_mark (hl ▸ by decide) rfl h
  rcases ite_eq_iff.mp h with ⟨hr, h⟩ | ⟨-, h⟩
  · exact lexStep_mark (hr ▸ by decide) rfl h
  rcases ite_eq_iff.mp h with ⟨hcomma, h⟩ | ⟨-, h⟩
  · exact lexStep_mark (hcomma ▸ by decide) rfl h
  rcases ite_eq_iff.mp h with ⟨heq, h⟩ | ⟨-, h⟩
  · exact lexStep_mark (heq ▸ by decide) rfl h
  rcases ite_eq_iff.mp h with ⟨⟨rfl, hhead⟩, h⟩ | ⟨-, h⟩
  · obtain ⟨rest, rfl⟩ : ∃ rest, bytes = byteOf '=' :: rest := List.head?_eq_some_iff.mp hhead
    change LexStep i (byteOf '!' :: ([byteOf '='] ++ rest)) ts
    refine lexStep_emit (scanned_plain ?_) h
    exact List.all_eq_true.mp (by decide)
  rcases ite_eq_iff.mp h with ⟨hquote, h⟩ | ⟨-, h⟩
  · obtain ⟨r, hr, hemit⟩ := bind_eq_ok.mp h
    obtain ⟨body, rest, rfl, hlen, hplace, hdigit⟩ := scanString_spec hr
    rw [Nat.add_sub_cancel, ← hlen] at hemit
    have hscanned : Scanned (c :: body) (Token.str (String.ofList r.1)).keys := by
      rw [hquote]
      exact ⟨hplace, hdigit⟩
    exact lexStep_emit hscanned hemit
  rcases ite_eq_iff.mp h with ⟨hstart, h⟩ | ⟨-, h⟩
  · obtain ⟨r, hr, hemit⟩ := bind_eq_ok.mp h
    obtain ⟨piece, rest, rfl, hlen, hscanned⟩ := scanWord_spec (isWordByte_of_start hstart) hr
    rw [← hlen, Nat.add_sub_cancel] at hemit
    exact lexStep_emit hscanned hemit
  · cases h

/-- A text that the tokenizer reads is made of such stretches. -/
lemma scanned_tokenizeFrom (n : ℕ) {i : ℕ} {bytes : List UInt8} {ts : Tokens}
    (hn : bytes.length ≤ n) (h : tokenizeFrom i 0 bytes = .ok ts) :
    Scanned bytes (keysOf ts) := by
  induction n generalizing i bytes ts with
  | zero =>
    rw [List.length_eq_zero_iff.mp (Nat.le_zero.mp hn)] at h ⊢
    cases h
    exact Scanned.nil
  | succ n ih =>
    cases bytes with
    | nil =>
      cases h
      exact Scanned.nil
    | cons c bytes =>
      obtain ⟨piece, rest, found, ts', hbytes, hpos, rfl, hpiece, hrest⟩ := tokenizeFrom_step h
      rw [hbytes, List.length_append] at hn
      rw [hbytes, keysOf, List.flatMap_append]
      exact hpiece.append (ih (by omega) hrest)

lemma exists_tokens_of_parse {input : String} {f : Filter} (h : Filter.parse input = .ok f) :
    ∃ ts, tokenize input = .ok ts ∧ Derives .or ts f.expr := by
  rw [Filter.parse_eq] at h
  obtain ⟨e, hparse, hret⟩ := bind_eq_ok.mp h
  obtain ⟨ts, htokens, htree⟩ := bind_eq_ok.mp hparse
  cases hret
  exact ⟨ts, htokens, derives_of_parseTokens htree⟩

/-- The keys of an accepted filter are documented ones exactly if no digit and no `-` comes
right after a dot or colon outside of its string literals. -/
theorem keys_documented_iff (input : String) (f : Filter) (h : Filter.parse input = .ok f) :
    (∀ key ∈ f.expr.keys, isDocumentedKey key = true) ↔
      digitAfterSeparator .outside (input.toList.flatMap String.utf8EncodeChar) = false := by
  obtain ⟨ts, htokens, hderives⟩ := exists_tokens_of_parse h
  have hscanned := scanned_tokenizeFrom _ le_rfl htokens
  rw [hscanned.keys, hderives.keys, List.any_eq_false]
  simp only [Bool.not_eq_true', Bool.not_eq_false]

/-- A separator in a literal does not count, and keys may go on with digits and dashes. -/
theorem keys_documented_of_literal :
    Filter.parse "attributes._x-1 = \"attributes.1\"" = .ok ⟨.eq "_x-1" "attributes.1" false⟩ ∧
      ∀ key ∈ (Expr.eq "_x-1" "attributes.1" false).keys, isDocumentedKey key = true := by
  have hparse : Filter.parse "attributes._x-1 = \"attributes.1\"" =
      .ok ⟨.eq "_x-1" "attributes.1" false⟩ := by decide +kernel
  exact ⟨hparse, (keys_documented_iff _ _ hparse).mpr (by decide +kernel)⟩

/-- Not all accepted filters have documented keys only. -/
theorem key_starts_with_digit :
    Filter.parse "attributes:1a" = .ok ⟨.hasAttr "1a"⟩ ∧ isDocumentedKey "1a" = false ∧
      ¬ ∀ input f, Filter.parse input = .ok f →
        ∀ key ∈ f.expr.keys, isDocumentedKey key = true := by
  have hparse : Filter.parse "attributes:1a" = .ok ⟨.hasAttr "1a"⟩ := by decide +kernel
  refine ⟨hparse, by decide, fun hall => ?_⟩
  exact absurd (hall _ _ hparse "1a" List.mem_cons_self) (by decide)

end Deltio
