import Deltio.FilterGrammar

namespace Deltio

open Lib Result

def escape (c : Char) : List Char := if c = '"' ∨ c = '\\' then ['\\', c] else [c]

def quote (value : String) : String := String.ofList ('"' :: (value.toList.flatMap escape ++ ['"']))

namespace Expr

def isCompound : Expr → Bool
  | .and _ _ | .or _ _ | .not _ => true
  | _ => false

def operand (compound : Bool) (text : String) : String :=
  if compound then "(" ++ text ++ ")" else text

def print : Expr → String
  | .eq key value negated =>
    "attributes." ++ key ++ (if negated then " != " else " = ") ++ quote value
  | .hasPrefix key value => "hasPrefix(attributes." ++ key ++ ", " ++ quote value ++ ")"
  | .hasAttr key => "attributes:" ++ key
  | .and l r => operand l.isCompound l.print ++ " AND " ++ operand r.isCompound r.print
  | .or l r => operand l.isCompound l.print ++ " OR " ++ operand r.isCompound r.print
  | .not inner => "NOT " ++ operand inner.isCompound inner.print

lemma print_eq (key value : String) (negated : Bool) : print (.eq key value negated) =
    "attributes." ++ key ++ (if negated then " != " else " = ") ++ quote value := rfl

lemma print_hasPrefix (key value : String) : print (.hasPrefix key value) =
    "hasPrefix(attributes." ++ key ++ ", " ++ quote value ++ ")" := rfl

lemma print_hasAttr (key : String) : print (.hasAttr key) = "attributes:" ++ key := rfl

lemma print_and (l r : Expr) : print (.and l r) =
    operand l.isCompound l.print ++ " AND " ++ operand r.isCompound r.print := rfl

lemma print_or (l r : Expr) : print (.or l r) =
    operand l.isCompound l.print ++ " OR " ++ operand r.isCompound r.print := rfl

end Expr

/-- The keys of the filter language: `[A-Za-z0-9_-]+`. -/
def IsKey (key : String) : Prop :=
  key.toList ≠ [] ∧ ∀ c ∈ key.toList, c.isAlphanum = true ∨ c = '_' ∨ c = '-'

def IsAscii (value : String) : Prop := ∀ c ∈ value.toList, c.toNat < 128

-- by the characters of the text: `Char` is finite, and the instance for all its values is too slow
instance (key : String) : Decidable (IsKey key) :=
  @instDecidableAnd _ _ inferInstance (List.decidableBAll _ _)

instance (value : String) : Decidable (IsAscii value) := List.decidableBAll _ _

/-- Keys are keys and values are ASCII. -/
def Expr.Printable : Expr → Prop
  | .eq key value _ => IsKey key ∧ IsAscii value
  | .hasPrefix key value => IsKey key ∧ IsAscii value
  | .hasAttr key => IsKey key
  | .and l r => l.Printable ∧ r.Printable
  | .or l r => l.Printable ∧ r.Printable
  | .not inner => inner.Printable

/-- A character whose number is a byte. -/
lemma byteChar_byteOf {c : Char} (h : c.toNat < 256) : byteChar (byteOf c) = c := by
  unfold byteChar byteOf
  rw [UInt8.toNat_ofNat', Nat.mod_eq_of_lt (by omega), Char.ofNat_toNat]

lemma IsAscii.byte {value : String} (h : IsAscii value) : ∀ c ∈ value.toList, c.toNat < 256 :=
  fun c hc => (h c hc).trans (by decide)

lemma utf8EncodeChar_of_ascii {c : Char} (h : c.toNat < 128) :
    String.utf8EncodeChar c = [byteOf c] := by
  have hsize : c.utf8Size = 1 := Char.utf8Size_eq_one_iff.mpr (by
    rw [UInt32.le_iff_toNat_le]
    change c.toNat ≤ 127
    omega)
  rw [String.utf8EncodeChar_eq_singleton hsize]
  rfl

lemma flatMap_utf8EncodeChar {text : List Char} (h : ∀ c ∈ text, c.toNat < 128) :
    text.flatMap String.utf8EncodeChar = text.map byteOf := by
  induction text with
  | nil => rfl
  | cons c text ih =>
    rw [List.flatMap_cons, utf8EncodeChar_of_ascii (h c List.mem_cons_self),
      ih fun c' hc' => h c' (List.mem_cons_of_mem _ hc')]
    rfl

lemma toList_asciiText (bytes : List UInt8) : (asciiText bytes).toList = bytes.map byteChar :=
  String.toList_ofList

lemma asciiText_map_byteOf {text : List Char} (h : ∀ c ∈ text, c.toNat < 128) :
    asciiText (text.map byteOf) = String.ofList text := by
  have hid : (text.map byteOf).map byteChar = text := by
    rw [List.map_map]
    exact (List.map_congr_left fun c hc => byteChar_byteOf (by have := h c hc; omega)).trans (List.map_id text)
  rw [asciiText, hid]

lemma toNat_lt_of_isAlphanum {c : Char} (h : c.isAlphanum = true) : c.toNat < 128 := by
  change ((decide (65 ≤ c.val ∧ c.val ≤ 90) || decide (97 ≤ c.val) && decide (c.val ≤ 122)) ||
    decide (48 ≤ c.val) && decide (c.val ≤ 57)) = true at h
  simp only [Bool.or_eq_true, Bool.and_eq_true, decide_eq_true_eq, UInt32.le_iff_toNat_le] at h
  change ((65 ≤ c.toNat ∧ c.toNat ≤ 90) ∨ (97 ≤ c.toNat ∧ c.toNat ≤ 122)) ∨
    (48 ≤ c.toNat ∧ c.toNat ≤ 57) at h
  omega

lemma IsKey.ascii {key : String} (h : IsKey key) : ∀ c ∈ key.toList, c.toNat < 128 := by
  intro c hc
  rcases h.2 c hc with hc | rfl | rfl
  · exact toNat_lt_of_isAlphanum hc
  · decide
  · decide

lemma IsKey.isWordByte {key : String} (h : IsKey key) :
    ∀ b ∈ key.toList.map byteOf, isWordByte b = true := by
  intro b hb
  obtain ⟨c, hc, rfl⟩ := List.mem_map.mp hb
  unfold Deltio.isWordByte
  rw [byteChar_byteOf (by have := h.ascii c hc; omega)]
  rcases h.2 c hc with hc | rfl | rfl
  · rw [hc]
    rfl
  · decide
  · decide

def Boundary (rest : List UInt8) : Prop := ∀ b, rest.head? = some b → isWordByte b = false

lemma boundary_nil : Boundary [] := nofun

lemma boundary_cons {b : UInt8} (h : isWordByte b = false) (rest : List UInt8) :
    Boundary (b :: rest) := by
  intro b' hb'
  cases hb'
  exact h

lemma boundary_append {c : Char} (h : isWordByte (byteOf c) = false) (text : List Char)
    (rest : List UInt8) : Boundary (([c] ++ text).map byteOf ++ rest) := boundary_cons h _

lemma takeWhile_word {word rest : List UInt8} (hw : ∀ b ∈ word, isWordByte b = true)
    (hr : Boundary rest) : (word ++ rest).takeWhile isWordByte = word := by
  rw [List.takeWhile_append_of_pos hw]
  cases rest with
  | nil => simp
  | cons b rest => simp [hr b rfl]

lemma dropWhile_word {word rest : List UInt8} (hw : ∀ b ∈ word, isWordByte b = true)
    (hr : Boundary rest) : (word ++ rest).dropWhile isWordByte = rest := by
  rw [List.dropWhile_append_of_pos hw]
  cases rest with
  | nil => rfl
  | cons b rest => simp [hr b rfl]

lemma tokenizeFrom_skip (i : ℕ) (skipped rest : List UInt8) :
    tokenizeFrom i skipped.length (skipped ++ rest) =
      tokenizeFrom (i + skipped.length) 0 rest := by
  induction skipped generalizing i with
  | nil => rfl
  | cons b skipped ih =>
    rw [List.cons_append, List.length_cons, tokenizeFrom, ih]
    congr 1
    omega

/-- The text is read as these tokens, whatever follows. -/
def Lexes (text : List Char) (i : ℕ) (tokens : Tokens) (rest : List UInt8) : Prop :=
  tokenizeFrom i 0 (text.map byteOf ++ rest) =
    tokenizeFrom (i + text.length) 0 rest >>= fun ts => pure (tokens ++ ts)

lemma Lexes.append {text text' : List Char} {i : ℕ} {ts ts' : Tokens} {rest : List UInt8}
    (h : Lexes text i ts (text'.map byteOf ++ rest))
    (h' : Lexes text' (i + text.length) ts' rest) :
    Lexes (text ++ text') i (ts ++ ts') rest := by
  unfold Lexes at *
  rw [List.map_append, List.append_assoc, h, h', List.length_append, Nat.add_assoc]
  simp only [bind_assoc, pure_bind, List.append_assoc]

lemma lexes_space (i : ℕ) (rest : List UInt8) : Lexes [' '] i [] rest := by
  unfold Lexes
  simp only [List.nil_append, bind_pure]
  rfl

lemma lexes_lParen (i : ℕ) (rest : List UInt8) : Lexes ['('] i [(.lParen, i)] rest := rfl

lemma lexes_rParen (i : ℕ) (rest : List UInt8) : Lexes [')'] i [(.rParen, i)] rest := rfl

lemma lexes_comma (i : ℕ) (rest : List UInt8) : Lexes [','] i [(.comma, i)] rest := rfl

lemma lexes_eq (i : ℕ) (rest : List UInt8) : Lexes ['='] i [(.eq, i)] rest := rfl

lemma lexes_notEq (i : ℕ) (rest : List UInt8) : Lexes ['!', '='] i [(.notEq, i)] rest := rfl

/-- A byte that starts a word is none of the others the tokenizer looks for. -/
lemma tokenizeFrom_word {c : UInt8} (hc : isAsciiAlphabetic c = true) (i : ℕ) (bytes : List UInt8) :
    tokenizeFrom i 0 (c :: bytes) = scanWord i (c :: bytes) >>= fun r =>
      tokenizeFrom (i + 1) (r.2 - 1) bytes >>= fun ts => pure ((r.1, i) :: ts) := by
  have hne : ∀ b, isAsciiAlphabetic b = false → c ≠ b := by
    rintro b hb rfl
    rw [hc] at hb
    cases hb
  rw [tokenizeFrom]
  simp only [hne (byteOf ' ') rfl, hne (byteOf '\t') rfl, hne (byteOf '\n') rfl,
    hne (byteOf '\r') rfl, hne (byteOf '(') rfl, hne (byteOf ')') rfl, hne (byteOf ',') rfl,
    hne (byteOf '=') rfl, hne (byteOf '!') rfl, hne (byteOf '"') rfl, hc, false_and, or_self,
    if_false, Bool.true_or, if_true]

lemma lexes_word {c : Char} {word : List Char} {i : ℕ} {t : Token} {rest : List UInt8}
    (hc : isAsciiAlphabetic (byteOf c) = true)
    (h : scanWord i ((c :: word).map byteOf ++ rest) = .ok (t, word.length + 1)) :
    Lexes (c :: word) i [(t, i)] rest := by
  unfold Lexes
  rw [List.map_cons, List.cons_append] at h ⊢
  rw [tokenizeFrom_word hc, h]
  have hskip := tokenizeFrom_skip (i + 1) (word.map byteOf) rest
  rw [List.length_map] at hskip
  rw [show i + (c :: word).length = i + 1 + word.length by rw [List.length_cons]; omega, ← hskip]
  rfl

/-- Only after `attributes` does the token depend on what follows the word. -/
lemma scanWord_append {word rest : List UInt8} (hw : ∀ b ∈ word, isWordByte b = true)
    (hr : Boundary rest) (h : asciiText word ≠ "attributes") (i : ℕ) :
    scanWord i (word ++ rest) = scanWord i word := by
  have halone := takeWhile_word hw boundary_nil
  rw [List.append_nil] at halone
  simp only [scanWord, takeWhile_word hw hr, halone, if_neg h]

lemma lexes_and (i : ℕ) {rest : List UInt8} (hr : Boundary rest) :
    Lexes ['A', 'N', 'D'] i [(.and, i)] rest :=
  lexes_word rfl (scanWord_append (List.all_eq_true.mp (by decide)) hr (by decide) i)

lemma lexes_or (i : ℕ) {rest : List UInt8} (hr : Boundary rest) :
    Lexes ['O', 'R'] i [(.or, i)] rest :=
  lexes_word rfl (scanWord_append (List.all_eq_true.mp (by decide)) hr (by decide) i)

lemma lexes_not (i : ℕ) {rest : List UInt8} (hr : Boundary rest) :
    Lexes ['N', 'O', 'T'] i [(.not, i)] rest :=
  lexes_word rfl (scanWord_append (List.all_eq_true.mp (by decide)) hr (by decide) i)

lemma lexes_hasPrefix (i : ℕ) {rest : List UInt8} (hr : Boundary rest) :
    Lexes "hasPrefix".toList i [(.ident "hasPrefix", i)] rest :=
  lexes_word rfl (scanWord_append (List.all_eq_true.mp (by decide)) hr (by decide) i)

/-- The key after `attributes` may itself look like an operator. -/
lemma scanWord_attributes {sep : Char} (hsep : sep = '.' ∨ sep = ':') {key : String} (hk : IsKey key)
    {rest : List UInt8} (hr : Boundary rest) (i : ℕ) :
    scanWord i (("attributes".toList ++ sep :: key.toList).map byteOf ++ rest) =
      .ok (if sep = '.' then .attribute key else .attributeHas key, key.toList.length + 11) := by
  have hword : ∀ b ∈ "attributes".toList.map byteOf, isWordByte b = true :=
    List.all_eq_true.mp (by decide)
  have hafter : Boundary (byteOf sep :: (key.toList.map byteOf ++ rest)) := by
    apply boundary_cons
    rcases hsep with rfl | rfl <;> decide
  have hne : key.toList.map byteOf ≠ [] := fun h => hk.1 (List.map_eq_nil_iff.mp h)
  have htext : asciiText (key.toList.map byteOf) = key := by
    rw [asciiText_map_byteOf hk.ascii, String.ofList_toList]
  have hattributes : asciiText ("attributes".toList.map byteOf) = "attributes" := by decide
  rw [List.map_append, List.map_cons, List.append_assoc, List.cons_append]
  simp only [scanWord, takeWhile_word hword hafter, dropWhile_word hword hafter, hattributes,
    takeWhile_word hk.isWordByte hr, if_neg hne, htext, List.length_map]
  rw [if_neg (by decide), if_neg (by decide), if_neg (by decide), if_pos trivial]
  rcases hsep with rfl | rfl
  · rw [if_neg (by decide), if_pos rfl, if_pos rfl, Nat.add_comm]
    rfl
  · rw [if_neg (by decide), if_neg (by decide), if_neg (by decide), Nat.add_comm]
    rfl

lemma lexes_attribute {key : String} (hk : IsKey key) (i : ℕ) {rest : List UInt8}
    (hr : Boundary rest) :
    Lexes ("attributes.".toList ++ key.toList) i [(.attribute key, i)] rest :=
  lexes_word rfl (scanWord_attributes (.inl rfl) hk hr i)

lemma lexes_attributeHas {key : String} (hk : IsKey key) (i : ℕ) {rest : List UInt8}
    (hr : Boundary rest) :
    Lexes ("attributes:".toList ++ key.toList) i [(.attributeHas key, i)] rest :=
  lexes_word rfl (scanWord_attributes (.inr rfl) hk hr i)

lemma scanString_cons {b : UInt8} (hq : b ≠ byteOf '"') (hs : b ≠ byteOf '\\') {bytes : List UInt8}
    (h : bytes ≠ []) :
    scanString (b :: bytes) = scanString bytes >>= fun r => pure (byteChar b :: r.1, r.2 + 1) := by
  cases bytes with
  | nil => exact absurd rfl h
  | cons b' bytes => simp only [scanString, if_neg hq, if_neg hs]

/-- Only characters that are one byte are read back. -/
lemma scanString_escape {value : List Char} (h : ∀ c ∈ value, c.toNat < 256) (rest : List UInt8) :
    scanString ((value.flatMap escape).map byteOf ++ byteOf '"' :: rest) =
      .ok (value, (value.flatMap escape).length + 1) := by
  induction value with
  | nil =>
    cases rest with
    | nil => rfl
    | cons b rest => rfl
  | cons c value ih =>
    have hrest := ih fun c' hc' => h c' (List.mem_cons_of_mem _ hc')
    by_cases hc : c = '"' ∨ c = '\\'
    · have hescape : escape c = ['\\', c] := if_pos hc
      rw [List.flatMap_cons, hescape]
      simp only [List.cons_append, List.nil_append, List.map_cons]
      rcases hc with rfl | rfl
      · rw [scanString, hrest]
        rfl
      · rw [scanString, hrest]
        rfl
    · have hescape : escape c = [c] := if_neg hc
      rw [List.flatMap_cons, hescape]
      rw [not_or] at hc
      have hbyte := h c List.mem_cons_self
      have hne : ∀ {c'}, c'.toNat < 256 → c ≠ c' → byteOf c ≠ byteOf c' := by
        intro c' hc' hne heq
        exact hne (by rw [← byteChar_byteOf hbyte, heq, byteChar_byteOf hc'])
      rw [List.singleton_append, List.map_cons, List.cons_append,
        scanString_cons (hne (by decide) hc.1) (hne (by decide) hc.2) (by simp), hrest,
        byteChar_byteOf hbyte]
      rfl

lemma tokenizeFrom_quote (i : ℕ) (bytes : List UInt8) :
    tokenizeFrom i 0 (byteOf '"' :: bytes) = scanString bytes >>= fun r =>
      tokenizeFrom (i + 1) r.2 bytes >>= fun ts => pure ((.str (String.ofList r.1), i) :: ts) :=
  rfl

lemma lexes_quote {value : String} (h : ∀ c ∈ value.toList, c.toNat < 256) (i : ℕ) (rest : List UInt8) :
    Lexes (quote value).toList i [(.str value, i)] rest := by
  have hskip := tokenizeFrom_skip (i + 1) ((value.toList.flatMap escape ++ ['"']).map byteOf) rest
  rw [List.length_map] at hskip
  have hbytes : (value.toList.flatMap escape ++ ['"']).map byteOf ++ rest =
      (value.toList.flatMap escape).map byteOf ++ byteOf '"' :: rest := by simp
  unfold Lexes
  rw [quote, String.toList_ofList, List.map_cons, List.cons_append, tokenizeFrom_quote, hbytes,
    scanString_escape h rest, List.length_cons]
  rw [hbytes, List.length_append, List.length_singleton] at hskip
  rw [List.length_append, List.length_singleton, ← Nat.add_assoc, Nat.add_right_comm i, ← hskip]
  change (tokenizeFrom _ _ _ >>= fun ts => pure ((.str (String.ofList value.toList), i) :: ts)) = _
  rw [String.ofList_toList]
  rfl

/-- The text of the expression is read as tokens that derive it. -/
def Reparses (level : Level) (e : Expr) (text : String) : Prop :=
  ∀ i rest, Boundary rest → ∃ ts, Derives level ts e ∧ Lexes text.toList i ts rest

/-- A tighter level is a looser one. -/
lemma Derives.or_of_level {level : Level} {ts : Tokens} {e : Expr} (h : Derives level ts e) :
    Derives .or ts e := by
  cases level with
  | or => exact h
  | and => exact .orOfAnd h
  | not => exact .orOfAnd (.andOfNot h)
  | primary => exact .orOfAnd (.andOfNot (.notOfPrimary h))

lemma Reparses.paren {level : Level} {e : Expr} {text : String} (h : Reparses level e text) :
    Reparses .primary e ("(" ++ text ++ ")") := by
  intro i rest _
  obtain ⟨ts, hd, hl⟩ := h (i + 1) (byteOf ')' :: rest) (boundary_cons rfl rest)
  have htext : ("(" ++ text ++ ")").toList = ['('] ++ (text.toList ++ [')']) := by
    rw [String.toList_append, String.toList_append, List.append_assoc]
    rfl
  refine ⟨_, .paren i (i + 1 + text.toList.length) hd.or_of_level, ?_⟩
  rw [htext]
  exact (lexes_lParen i _).append (hl.append (lexes_rParen _ rest))

/-- An operand is a primary, with or without parentheses. -/
lemma Reparses.operand {level : Level} {e : Expr} {text : String} (h : Reparses level e text)
    (hl : e.isCompound = false → level = .primary) :
    Reparses .primary e (Expr.operand e.isCompound text) := by
  unfold Expr.operand
  split_ifs with hc
  · exact h.paren
  · rw [← hl (Bool.eq_false_iff.mpr hc)]
    exact h

/-- Two operands with an operator between them. -/
lemma reparses_infix {l r : Expr} {left right : String} {operator : List Char} {t : Token}
    (hoperator : ∀ i rest, Boundary rest → Lexes operator i [(t, i)] rest)
    (hl : Reparses .primary l left) (hr : Reparses .primary r right) (i : ℕ) (rest : List UInt8)
    (hrest : Boundary rest) :
    ∃ ts p ts', Derives .primary ts l ∧ Derives .primary ts' r ∧
      Lexes (left.toList ++ ([' '] ++ (operator ++ ([' '] ++ right.toList)))) i
        (ts ++ (t, p) :: ts') rest := by
  obtain ⟨ts, hd, hlex⟩ := hl i
    (([' '] ++ (operator ++ ([' '] ++ right.toList))).map byteOf ++ rest) (boundary_append (by decide) _ _)
  obtain ⟨ts', hd', hlex'⟩ := hr (i + left.toList.length + 1 + operator.length + 1) rest hrest
  have hop := hoperator (i + left.toList.length + 1)
    (([' '] ++ right.toList).map byteOf ++ rest) (boundary_append (by decide) _ _)
  refine ⟨ts, i + left.toList.length + 1, ts', hd, hd', ?_⟩
  exact hlex.append ((lexes_space _ _).append (hop.append ((lexes_space _ _).append hlex')))

def Expr.level : Expr → Level
  | .or _ _ => .or
  | .and _ _ => .and
  | .not _ => .not
  | _ => .primary

lemma Expr.level_of_not_isCompound {e : Expr} (h : e.isCompound = false) : e.level = .primary := by
  cases e with
  | and | or | not => cases h
  | _ => rfl

lemma reparses_eq {key value : String} (hk : IsKey key)
    (hv : ∀ c ∈ value.toList, c.toNat < 256) (negated : Bool) :
    Reparses .primary (.eq key value negated) (Expr.print (.eq key value negated)) := by
  intro i rest _
  cases negated with
  | false =>
    have htext : (Expr.print (.eq key value false)).toList = ("attributes.".toList ++ key.toList) ++
        ([' '] ++ (['='] ++ ([' '] ++ (quote value).toList))) := by
      rw [Expr.print_eq, String.toList_append, String.toList_append, String.toList_append,
        List.append_assoc]
      rfl
    rw [htext]
    exact ⟨_, .eq key value i _ _, (lexes_attribute hk i (boundary_append (by decide) _ _)).append
      ((lexes_space _ _).append ((lexes_eq _ _).append ((lexes_space _ _).append
        (lexes_quote hv _ rest))))⟩
  | true =>
    have htext : (Expr.print (.eq key value true)).toList = ("attributes.".toList ++ key.toList) ++
        ([' '] ++ (['!', '='] ++ ([' '] ++ (quote value).toList))) := by
      rw [Expr.print_eq, String.toList_append, String.toList_append, String.toList_append,
        List.append_assoc]
      rfl
    rw [htext]
    exact ⟨_, .notEq key value i _ _, (lexes_attribute hk i (boundary_append (by decide) _ _)).append
      ((lexes_space _ _).append ((lexes_notEq _ _).append ((lexes_space _ _).append
        (lexes_quote hv _ rest))))⟩

lemma reparses_hasPrefix {key value : String} (hk : IsKey key)
    (hv : ∀ c ∈ value.toList, c.toNat < 256) :
    Reparses .primary (.hasPrefix key value) (Expr.print (.hasPrefix key value)) := by
  intro i rest _
  have htext : (Expr.print (.hasPrefix key value)).toList = "hasPrefix".toList ++ (['('] ++
      (("attributes.".toList ++ key.toList) ++ ([','] ++ ([' '] ++
        ((quote value).toList ++ [')']))))) := by
    rw [Expr.print_hasPrefix, String.toList_append, String.toList_append, String.toList_append,
      String.toList_append]
    simp only [List.append_assoc]
    rfl
  rw [htext]
  exact ⟨_, .hasPrefix key value i _ _ _ _ _, (lexes_hasPrefix i (boundary_append (by decide) _ _)).append
    ((lexes_lParen _ _).append ((lexes_attribute hk _ (boundary_append (by decide) _ _)).append
      ((lexes_comma _ _).append ((lexes_space _ _).append
        ((lexes_quote hv _ _).append (lexes_rParen _ rest))))))⟩

lemma reparses_not {e : Expr} {text : String} (h : Reparses .primary e text) :
    Reparses .not (.not e) ("NOT " ++ text) := by
  intro i rest hrest
  obtain ⟨ts, hd, hl⟩ := h (i + 3 + 1) rest hrest
  have htext : ("NOT " ++ text).toList = ['N', 'O', 'T'] ++ ([' '] ++ text.toList) := by
    rw [String.toList_append]
    rfl
  rw [htext]
  exact ⟨_, .not i (.notOfPrimary hd), (lexes_not i (boundary_append (by decide) _ _)).append
    ((lexes_space _ _).append hl)⟩

/-- The text of an expression is read as tokens that derive the expression. -/
theorem reparses_print {e : Expr} (h : e.Printable) : Reparses e.level e e.print := by
  induction e with
  | eq key value negated => exact reparses_eq h.1 h.2.byte negated
  | hasPrefix key value => exact reparses_hasPrefix h.1 h.2.byte
  | hasAttr key =>
    intro i rest hrest
    refine ⟨_, .hasAttr key i, ?_⟩
    rw [Expr.print_hasAttr, String.toList_append]
    exact lexes_attributeHas h i hrest
  | and l r ihl ihr =>
    intro i rest hrest
    obtain ⟨ts, p, ts', hd, hd', hlex⟩ := reparses_infix (fun i rest => lexes_and i)
      ((ihl h.1).operand Expr.level_of_not_isCompound)
      ((ihr h.2).operand Expr.level_of_not_isCompound) i rest hrest
    refine ⟨_, .and p (.andOfNot (.notOfPrimary hd)) (.notOfPrimary hd'), ?_⟩
    rw [Expr.print_and, String.toList_append, String.toList_append, List.append_assoc]
    exact hlex
  | or l r ihl ihr =>
    intro i rest hrest
    obtain ⟨ts, p, ts', hd, hd', hlex⟩ := reparses_infix (fun i rest => lexes_or i)
      ((ihl h.1).operand Expr.level_of_not_isCompound)
      ((ihr h.2).operand Expr.level_of_not_isCompound) i rest hrest
    refine ⟨_, .or p hd.or_of_level (.andOfNot (.notOfPrimary hd')), ?_⟩
    rw [Expr.print_or, String.toList_append, String.toList_append, List.append_assoc]
    exact hlex
  | not inner ih => exact reparses_not ((ih h).operand Expr.level_of_not_isCompound)

lemma ascii_escape {value : List Char} (h : ∀ c ∈ value, c.toNat < 128) :
    ∀ c ∈ value.flatMap escape, c.toNat < 128 := by
  intro c hc
  obtain ⟨c', hc', hc⟩ := List.mem_flatMap.mp hc
  unfold escape at hc
  split_ifs at hc
  · rcases List.mem_pair.mp hc with rfl | rfl
    · decide
    · exact h c hc'
  · rw [List.mem_singleton.mp hc]
    exact h c' hc'

lemma isAscii_append {s t : String} (hs : IsAscii s) (ht : IsAscii t) : IsAscii (s ++ t) := by
  intro c hc
  rw [String.toList_append] at hc
  rcases List.mem_append.mp hc with hc | hc
  · exact hs c hc
  · exact ht c hc

lemma isAscii_quote {value : String} (h : IsAscii value) : IsAscii (quote value) := by
  intro c hc
  rw [quote, String.toList_ofList] at hc
  rcases List.mem_cons.mp hc with rfl | hc
  · decide
  rcases List.mem_append.mp hc with hc | hc
  · exact ascii_escape h c hc
  · rw [List.mem_singleton.mp hc]
    decide

lemma isAscii_operand (compound : Bool) {text : String} (h : IsAscii text) :
    IsAscii (Expr.operand compound text) := by
  unfold Expr.operand
  split_ifs
  · exact isAscii_append (isAscii_append (by decide) h) (by decide)
  · exact h

lemma isAscii_print {e : Expr} (h : e.Printable) : IsAscii e.print := by
  induction e with
  | eq key value negated =>
    rw [Expr.print_eq]
    refine isAscii_append (isAscii_append (isAscii_append ?_ h.1.ascii) ?_) (isAscii_quote h.2)
    · decide
    · cases negated <;> decide
  | hasPrefix key value =>
    rw [Expr.print_hasPrefix]
    refine isAscii_append (isAscii_append (isAscii_append (isAscii_append ?_ h.1.ascii) ?_)
      (isAscii_quote h.2)) ?_ <;>
    decide
  | hasAttr key =>
    rw [Expr.print_hasAttr]
    refine isAscii_append ?_ (IsKey.ascii h)
    decide
  | and l r ihl ihr =>
    rw [Expr.print_and]
    refine isAscii_append (isAscii_append (isAscii_operand _ (ihl h.1)) ?_)
      (isAscii_operand _ (ihr h.2))
    decide
  | or l r ihl ihr =>
    rw [Expr.print_or]
    refine isAscii_append (isAscii_append (isAscii_operand _ (ihl h.1)) ?_)
      (isAscii_operand _ (ihr h.2))
    decide
  | not inner ih =>
    refine isAscii_append (s := "NOT ") ?_ (isAscii_operand _ (ih h))
    decide

/-- An input whose bytes are those of a text is parsed as that text. -/
lemma parse_of_reparses {level : Level} {e : Expr} {text input : String}
    (h : Reparses level e text)
    (hbytes : input.toList.flatMap String.utf8EncodeChar = text.toList.map byteOf) :
    Filter.parse input = .ok ⟨e⟩ := by
  obtain ⟨ts, hd, hlex⟩ := h 0 [] boundary_nil
  have htokens : tokenize input = .ok ts := by
    rw [tokenize, hbytes]
    unfold Lexes at hlex
    rw [List.append_nil] at hlex
    rw [hlex]
    simp only [tokenizeFrom]
    exact congrArg Except.ok (List.append_nil ts)
  rw [Filter.parse_eq, htokens]
  change (parseTokens ts >>= _) = _
  rw [parseTokens_of_derives hd.or_of_level]
  rfl

/-- A printed expression is parsed back, and so its filter is evaluated as the
expression. -/
theorem parse_print (e : Expr) (h : e.Printable) :
    Filter.parse e.print = .ok ⟨e⟩ ∧
      ∀ f, Filter.parse e.print = .ok f → ∀ attributes, f.matches attributes = eval attributes e := by
  have hparse : Filter.parse e.print = .ok ⟨e⟩ :=
    parse_of_reparses (reparses_print h) (flatMap_utf8EncodeChar (isAscii_print h))
  refine ⟨hparse, fun f hf attributes => ?_⟩
  rw [hparse] at hf
  cases hf
  rfl

/-- Keys that look like operators, and a value with both kinds of escapes. -/
theorem parse_print_not_and : Filter.parse
    (Expr.print (.not (.and (.hasAttr "and") (.eq "not" "\"\\" true)))) =
      .ok ⟨.not (.and (.hasAttr "and") (.eq "not" "\"\\" true))⟩ :=
  (parse_print (.not (.and (.hasAttr "and") (.eq "not" "\"\\" true)))
    (show IsKey "and" ∧ IsKey "not" ∧ IsAscii "\"\\" by decide)).1

end Deltio
