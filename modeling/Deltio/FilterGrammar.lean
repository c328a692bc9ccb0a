import Deltio.Filter
import Deltio.Lib.Result
import Mathlib.Tactic.Linarith

namespace Deltio

open Lib Result

/-- The levels of the grammar, from the loosest to the tightest. -/
inductive Level where
  | or
  | and
  | not
  | primary
deriving DecidableEq

/-- The tokens derive the expression at the given level, with OR and AND to the left.  Positions
are free.

    or      := and (OR and)*
    and     := not (AND not)*
    not     := NOT not | primary
    primary := '(' or ')' | attribute ('=' | '!=') string | attribute-has
             | 'hasPrefix' '(' attribute ',' string ')'
-/
inductive Derives : Level → Tokens → Expr → Prop
  | orOfAnd {ts : Tokens} {e : Expr} (h : Derives .and ts e) : Derives .or ts e
  | or {ts ts' : Tokens} {l r : Expr} (p : ℕ) (hl : Derives .or ts l) (hr : Derives .and ts' r) :
      Derives .or (ts ++ (.or, p) :: ts') (.or l r)
  | andOfNot {ts : Tokens} {e : Expr} (h : Derives .not ts e) : Derives .and ts e
  | and {ts ts' : Tokens} {l r : Expr} (p : ℕ) (hl : Derives .and ts l) (hr : Derives .not ts' r) :
      Derives .and (ts ++ (.and, p) :: ts') (.and l r)
  | not {ts : Tokens} {e : Expr} (p : ℕ) (h : Derives .not ts e) :
      Derives .not ((.not, p) :: ts) (.not e)
  | notOfPrimary {ts : Tokens} {e : Expr} (h : Derives .primary ts e) : Derives .not ts e
  | paren {ts : Tokens} {e : Expr} (p q : ℕ) (h : Derives .or ts e) :
      Derives .primary ((.lParen, p) :: (ts ++ [(.rParen, q)])) e
  | eq (key value : String) (p q r : ℕ) :
      Derives .primary [(.attribute key, p), (.eq, q), (.str value, r)] (.eq key value false)
  | notEq (key value : String) (p q r : ℕ) :
      Derives .primary [(.attribute key, p), (.notEq, q), (.str value, r)] (.eq key value true)
  | hasAttr (key : String) (p : ℕ) : Derives .primary [(.attributeHas key, p)] (.hasAttr key)
  | hasPrefix (key value : String) (p q r s t u : ℕ) :
      Derives .primary [(.ident "hasPrefix", p), (.lParen, q), (.attribute key, r), (.comma, s),
        (.str value, t), (.rParen, u)] (.hasPrefix key value)

def parseTokens (tokens : Tokens) : Except FilterParseError Expr := do
  let (expr, rest) ← parseOr (5 * (tokens.length + 1)) tokens
  expectEnd rest
  pure expr

lemma Filter.parse_eq (input : String) :
    Filter.parse input = (tokenize input >>= parseTokens) >>= fun e => pure ⟨e⟩ := by
  unfold Filter.parse parseTokens
  simp only [bind_assoc, pure_bind]

def StartsWith (t : Token) (ts : Tokens) : Prop := ∃ p ts', ts = (t, p) :: ts'

lemma startsWith_cons {t t' : Token} {p : ℕ} {ts : Tokens} :
    StartsWith t ((t', p) :: ts) ↔ t = t' := by
  constructor
  · rintro ⟨_, _, h⟩
    cases h
    rfl
  · rintro rfl
    exact ⟨p, ts, rfl⟩

lemma parseOrLoop_or (fuel : ℕ) (left : Expr) (p : ℕ) (ts : Tokens) :
    parseOrLoop (fuel + 1) left ((.or, p) :: ts) =
      parseAnd fuel ts >>= fun r => parseOrLoop fuel (.or left r.1) r.2 := by
  rw [parseOrLoop]

lemma parseOrLoop_of_not {ts : Tokens} (h : ¬ StartsWith .or ts) (fuel : ℕ) (left : Expr) :
    parseOrLoop (fuel + 1) left ts = .ok (left, ts) := by
  rw [parseOrLoop]
  rintro p ts' rfl
  exact h ⟨p, ts', rfl⟩

lemma parseAndLoop_and (fuel : ℕ) (left : Expr) (p : ℕ) (ts : Tokens) :
    parseAndLoop (fuel + 1) left ((.and, p) :: ts) =
      parseNot fuel ts >>= fun r => parseAndLoop fuel (.and left r.1) r.2 := by
  rw [parseAndLoop]

lemma parseAndLoop_of_not {ts : Tokens} (h : ¬ StartsWith .and ts) (fuel : ℕ) (left : Expr) :
    parseAndLoop (fuel + 1) left ts = .ok (left, ts) := by
  rw [parseAndLoop]
  rintro p ts' rfl
  exact h ⟨p, ts', rfl⟩

lemma parseNot_not (fuel p : ℕ) (ts : Tokens) :
    parseNot (fuel + 1) ((.not, p) :: ts) =
      parseNot fuel ts >>= fun r => pure (.not r.1, r.2) := by
  rw [parseNot]

lemma parseNot_of_not {ts : Tokens} (h : ¬ StartsWith .not ts) (fuel : ℕ) :
    parseNot (fuel + 1) ts = parsePrimary fuel ts := by
  rw [parseNot]
  rintro p ts' rfl
  exact h ⟨p, ts', rfl⟩

lemma expect_eq_ok {expected : Token} {ts rest : Tokens} {u : Unit}
    (h : expect expected ts = .ok (u, rest)) : ∃ p, ts = (expected, p) :: rest := by
  cases ts with
  | nil => cases h
  | cons t ts =>
    simp only [expect] at h
    split_ifs at h with ht
    cases h
    exact ⟨t.2, by rw [← ht]⟩

lemma expectString_eq_ok {ts rest : Tokens} {value : String}
    (h : expectString ts = .ok (value, rest)) : ∃ p, ts = (.str value, p) :: rest := by
  unfold expectString at h
  split at h <;> cases h
  exact ⟨_, rfl⟩

lemma expectAttribute_eq_ok {ts rest : Tokens} {key : String}
    (h : expectAttribute ts = .ok (key, rest)) : ∃ p, ts = (.attribute key, p) :: rest := by
  unfold expectAttribute at h
  split at h <;> cases h
  exact ⟨_, rfl⟩

lemma expectEnd_eq_ok {ts : Tokens} {u : Unit} (h : expectEnd ts = .ok u) : ts = [] := by
  cases ts with
  | nil => rfl
  | cons t ts => cases h

def Reads (level : Level) (ts : Tokens) (r : Except FilterParseError (Expr × Tokens)) : Prop :=
  ∀ e rest, r = .ok (e, rest) → ∃ used, ts = used ++ rest ∧ Derives level used e

def Extends (level : Level) (left : Expr) (ts : Tokens)
    (r : Except FilterParseError (Expr × Tokens)) : Prop :=
  ∀ before, Derives level before left → ∀ e rest, r = .ok (e, rest) →
    ∃ used, ts = used ++ rest ∧ Derives level (before ++ used) e

lemma reads_parseComparison (key : String) (p : ℕ) (ts : Tokens) :
    Reads .primary ((.attribute key, p) :: ts) (parseComparison key p ts) := by
  intro e rest h
  unfold parseComparison at h
  split at h
  · cases h
  · next q ts =>
    obtain ⟨⟨value, ts'⟩, hs, h⟩ := bind_eq_ok.mp h
    obtain ⟨r, rfl⟩ := expectString_eq_ok hs
    cases h
    exact ⟨[(.attribute key, p), (.eq, q), (.str value, r)], rfl, .eq key value p q r⟩
  · next q ts =>
    obtain ⟨⟨value, ts'⟩, hs, h⟩ := bind_eq_ok.mp h
    obtain ⟨r, rfl⟩ := expectString_eq_ok hs
    cases h
    exact ⟨[(.attribute key, p), (.notEq, q), (.str value, r)], rfl, .notEq key value p q r⟩
  · cases h

lemma reads_parseHasPrefix (p : ℕ) (ts : Tokens) :
    Reads .primary ((.ident "hasPrefix", p) :: ts) (parseHasPrefix ts) := by
  intro e rest h
  obtain ⟨⟨_, ts₁⟩, h₁, h⟩ := bind_eq_ok.mp h
  obtain ⟨⟨key, ts₂⟩, h₂, h⟩ := bind_eq_ok.mp h
  obtain ⟨⟨_, ts₃⟩, h₃, h⟩ := bind_eq_ok.mp h
  obtain ⟨⟨value, ts₄⟩, h₄, h⟩ := bind_eq_ok.mp h
  obtain ⟨⟨_, ts₅⟩, h₅, h⟩ := bind_eq_ok.mp h
  obtain ⟨q, rfl⟩ := expect_eq_ok h₁
  obtain ⟨r, rfl⟩ := expectAttribute_eq_ok h₂
  obtain ⟨s, rfl⟩ := expect_eq_ok h₃
  obtain ⟨t, rfl⟩ := expectString_eq_ok h₄
  obtain ⟨u, rfl⟩ := expect_eq_ok h₅
  cases h
  exact ⟨[_, _, _, _, _, _], rfl, .hasPrefix key value p q r s t u⟩

structure SoundAt (fuel : ℕ) : Prop where
  or : ∀ ts, Reads .or ts (parseOr fuel ts)
  orLoop : ∀ left ts, Extends .or left ts (parseOrLoop fuel left ts)
  and : ∀ ts, Reads .and ts (parseAnd fuel ts)
  andLoop : ∀ left ts, Extends .and left ts (parseAndLoop fuel left ts)
  not : ∀ ts, Reads .not ts (parseNot fuel ts)
  primary : ∀ ts, Reads .primary ts (parsePrimary fuel ts)

namespace SoundAt

variable {fuel : ℕ}

lemma or_succ (h : SoundAt fuel) (ts : Tokens) : Reads .or ts (parseOr (fuel + 1) ts) := by
  intro e rest hp
  rw [parseOr] at hp
  obtain ⟨⟨left, ts'⟩, hl, hloop⟩ := bind_eq_ok.mp hp
  obtain ⟨used, rfl, hd⟩ := h.and ts left ts' hl
  obtain ⟨used', rfl, hd'⟩ := h.orLoop left ts' used (.orOfAnd hd) e rest hloop
  exact ⟨used ++ used', (List.append_assoc ..).symm, hd'⟩

lemma orLoop_succ (h : SoundAt fuel) (left : Expr) (ts : Tokens) :
    Extends .or left ts (parseOrLoop (fuel + 1) left ts) := by
  intro before hb e rest hp
  by_cases ho : StartsWith .or ts
  · obtain ⟨p, ts, rfl⟩ := ho
    rw [parseOrLoop_or] at hp
    obtain ⟨⟨right, ts'⟩, hr, hloop⟩ := bind_eq_ok.mp hp
    obtain ⟨used, rfl, hd⟩ := h.and ts right ts' hr
    obtain ⟨used', rfl, hd'⟩ := h.orLoop _ ts' _ (.or p hb hd) e rest hloop
    refine ⟨(.or, p) :: (used ++ used'), by simp, ?_⟩
    simpa using hd'
  · rw [parseOrLoop_of_not ho] at hp
    cases hp
    exact ⟨[], rfl, by simpa using hb⟩

lemma and_succ (h : SoundAt fuel) (ts : Tokens) : Reads .and ts (parseAnd (fuel + 1) ts) := by
  intro e rest hp
  rw [parseAnd] at hp
  obtain ⟨⟨left, ts'⟩, hl, hloop⟩ := bind_eq_ok.mp hp
  obtain ⟨used, rfl, hd⟩ := h.not ts left ts' hl
  obtain ⟨used', rfl, hd'⟩ := h.andLoop left ts' used (.andOfNot hd) e rest hloop
  exact ⟨used ++ used', (List.append_assoc ..).symm, hd'⟩

lemma andLoop_succ (h : SoundAt fuel) (left : Expr) (ts : Tokens) :
    Extends .and left ts (parseAndLoop (fuel + 1) left ts) := by
  intro before hb e rest hp
  by_cases ha : StartsWith .and ts
  · obtain ⟨p, ts, rfl⟩ := ha
    rw [parseAndLoop_and] at hp
    obtain ⟨⟨right, ts'⟩, hr, hloop⟩ := bind_eq_ok.mp hp
    obtain ⟨used, rfl, hd⟩ := h.not ts right ts' hr
    obtain ⟨used', rfl, hd'⟩ := h.andLoop _ ts' _ (.and p hb hd) e rest hloop
    refine ⟨(.and, p) :: (used ++ used'), by simp, ?_⟩
    simpa using hd'
  · rw [parseAndLoop_of_not ha] at hp
    cases hp
    exact ⟨[], rfl, by simpa using hb⟩

lemma not_succ (h : SoundAt fuel) (ts : Tokens) : Reads .not ts (parseNot (fuel + 1) ts) := by
  intro e rest hp
  by_cases hn : StartsWith .not ts
  · obtain ⟨p, ts, rfl⟩ := hn
    rw [parseNot_not] at hp
    obtain ⟨⟨inner, ts'⟩, hi, hret⟩ := bind_eq_ok.mp hp
    obtain ⟨used, rfl, hd⟩ := h.not ts inner ts' hi
    cases hret
    exact ⟨(.not, p) :: used, rfl, .not p hd⟩
  · rw [parseNot_of_not hn] at hp
    obtain ⟨used, hts, hd⟩ := h.primary ts e rest hp
    exact ⟨used, hts, .notOfPrimary hd⟩

lemma primary_succ (h : SoundAt fuel) (ts : Tokens) :
    Reads .primary ts (parsePrimary (fuel + 1) ts) := by
  intro e rest hp
  rcases ts with _ | ⟨⟨t, p⟩, ts⟩
  · cases hp
  cases t with
  | lParen =>
    rw [parsePrimary] at hp
    obtain ⟨⟨inner, ts'⟩, hi, hclose⟩ := bind_eq_ok.mp hp
    obtain ⟨⟨_, ts''⟩, hr, hret⟩ := bind_eq_ok.mp hclose
    obtain ⟨used, rfl, hd⟩ := h.or ts inner ts' hi
    obtain ⟨q, rfl⟩ := expect_eq_ok hr
    cases hret
    exact ⟨(.lParen, p) :: (used ++ [(.rParen, q)]), by simp, .paren p q hd⟩
  | «attribute» key => exact reads_parseComparison key p ts e rest hp
  | attributeHas key =>
    cases hp
    exact ⟨[(.attributeHas key, p)], rfl, .hasAttr key p⟩
  | ident name =>
    rw [parsePrimary] at hp
    split_ifs at hp with hname
    rw [hname]
    exact reads_parseHasPrefix p ts e rest hp
  | _ => cases hp

end SoundAt

theorem soundAt (fuel : ℕ) : SoundAt fuel := by
  induction fuel with
  | zero =>
    refine ⟨?_, ?_, ?_, ?_, ?_, ?_⟩
    · exact fun ts e rest h => by cases h
    · exact fun left ts before _ e rest h => by cases h
    · exact fun ts e rest h => by cases h
    · exact fun left ts before _ e rest h => by cases h
    · exact fun ts e rest h => by cases h
    · exact fun ts e rest h => by cases h
  | succ fuel ih =>
    exact ⟨ih.or_succ, ih.orLoop_succ, ih.and_succ, ih.andLoop_succ, ih.not_succ, ih.primary_succ⟩

lemma Derives.length_pos {level : Level} {ts : Tokens} {e : Expr} (h : Derives level ts e) :
    0 < ts.length := by
  induction h with
  | orOfAnd _ ih => exact ih
  | or p _ _ ihl ihr => simp
  | andOfNot _ ih => exact ih
  | and p _ _ ihl ihr => simp
  | not p _ ih => simp
  | notOfPrimary _ ih => exact ih
  | paren | eq | notEq | hasAttr | hasPrefix => simp

/-- No primary starts with NOT. -/
lemma Derives.not_startsWith_not {ts : Tokens} {e : Expr} (h : Derives .primary ts e)
    (rest : Tokens) : ¬ StartsWith .not (ts ++ rest) := by
  cases h <;> rw [List.cons_append, startsWith_cons] <;> exact nofun

/-- With enough fuel the parser reads the tokens off the front of its input; what
follows is left to the loop of the level.  A loop that goes on has used up no
more fuel than tokens. -/
def Completes : Level → Tokens → Expr → Prop
  | .or, ts, e => ∀ rest fuel, ¬ StartsWith .and rest → 4 * ts.length ≤ fuel →
      ∃ fuel', fuel ≤ fuel' + ts.length ∧ parseOr fuel (ts ++ rest) = parseOrLoop fuel' e rest
  | .and, ts, e => ∀ rest fuel, 4 * ts.length ≤ fuel + 1 →
      ∃ fuel', fuel ≤ fuel' + ts.length ∧ parseAnd fuel (ts ++ rest) = parseAndLoop fuel' e rest
  | .not, ts, e => ∀ rest fuel, 4 * ts.length ≤ fuel + 2 → parseNot fuel (ts ++ rest) = .ok (e, rest)
  | .primary, ts, e => ∀ rest fuel, 4 * ts.length ≤ fuel + 3 →
      parsePrimary fuel (ts ++ rest) = .ok (e, rest)

lemma Completes.parseAnd {ts : Tokens} {e : Expr} (h : Completes .and ts e) (hpos : 0 < ts.length)
    {rest : Tokens} (hrest : ¬ StartsWith .and rest) {fuel : ℕ} (hfuel : 4 * ts.length ≤ fuel + 1) :
    Deltio.parseAnd fuel (ts ++ rest) = .ok (e, rest) := by
  obtain ⟨fuel', hle, heq⟩ := h rest fuel hfuel
  obtain ⟨n, rfl⟩ : ∃ n, fuel' = n + 1 := ⟨fuel' - 1, by omega⟩
  rw [heq, parseAndLoop_of_not hrest]

lemma Completes.parseOr {ts : Tokens} {e : Expr} (h : Completes .or ts e) (hpos : 0 < ts.length)
    {rest : Tokens} (hand : ¬ StartsWith .and rest) (hor : ¬ StartsWith .or rest) {fuel : ℕ}
    (hfuel : 4 * ts.length ≤ fuel) : Deltio.parseOr fuel (ts ++ rest) = .ok (e, rest) := by
  obtain ⟨fuel', hle, heq⟩ := h rest fuel hand hfuel
  obtain ⟨n, rfl⟩ : ∃ n, fuel' = n + 1 := ⟨fuel' - 1, by omega⟩
  rw [heq, parseOrLoop_of_not hor]

lemma completes_or {ts ts' : Tokens} {l r : Expr} {p : ℕ} (hl : Completes .or ts l)
    (hr : Completes .and ts' r) (hpos : 0 < ts'.length) :
    Completes .or (ts ++ (.or, p) :: ts') (.or l r) := by
  intro rest fuel hrest hfuel
  rw [List.length_append, List.length_cons] at hfuel ⊢
  have hor : ¬ StartsWith .and ((.or, p) :: (ts' ++ rest)) := by
    rw [startsWith_cons]
    exact nofun
  obtain ⟨fuel', hle, heq⟩ := hl _ fuel hor (by omega)
  obtain ⟨n, rfl⟩ : ∃ n, fuel' = n + 1 := ⟨fuel' - 1, by omega⟩
  refine ⟨n, by omega, ?_⟩
  rw [List.append_assoc, List.cons_append, heq, parseOrLoop_or,
    hr.parseAnd hpos hrest (by omega)]
  rfl

lemma completes_and {ts ts' : Tokens} {l r : Expr} {p : ℕ} (hl : Completes .and ts l)
    (hr : Completes .not ts' r) : Completes .and (ts ++ (.and, p) :: ts') (.and l r) := by
  intro rest fuel hfuel
  rw [List.length_append, List.length_cons] at hfuel ⊢
  obtain ⟨fuel', hle, heq⟩ := hl ((.and, p) :: (ts' ++ rest)) fuel (by omega)
  obtain ⟨n, rfl⟩ : ∃ n, fuel' = n + 1 := ⟨fuel' - 1, by omega⟩
  refine ⟨n, by omega, ?_⟩
  rw [List.append_assoc, List.cons_append, heq, parseAndLoop_and, hr rest n (by omega)]
  rfl

lemma completes_paren {ts : Tokens} {e : Expr} {p q : ℕ} (h : Completes .or ts e)
    (hpos : 0 < ts.length) : Completes .primary ((.lParen, p) :: (ts ++ [(.rParen, q)])) e := by
  intro rest fuel hfuel
  rw [List.length_cons, List.length_append, List.length_singleton] at hfuel
  obtain ⟨n, rfl⟩ : ∃ n, fuel = n + 1 := ⟨fuel - 1, by omega⟩
  have hand : ¬ StartsWith .and ((.rParen, q) :: rest) := by
    rw [startsWith_cons]
    exact nofun
  have hor : ¬ StartsWith .or ((.rParen, q) :: rest) := by
    rw [startsWith_cons]
    exact nofun
  have hn : 4 * ts.length ≤ n := by omega
  have hinner := h.parseOr hpos hand hor hn
  rw [List.cons_append, List.append_assoc, List.singleton_append, parsePrimary, hinner]
  rfl

/-- The bounds on the fuel leave one call for each level between a token and the
next. -/
theorem Derives.completes {level : Level} {ts : Tokens} {e : Expr} (h : Derives level ts e) :
    Completes level ts e := by
  induction h with
  | @orOfAnd ts e h ih =>
    intro rest fuel hrest hfuel
    have hpos := h.length_pos
    obtain ⟨n, rfl⟩ : ∃ n, fuel = n + 1 := ⟨fuel - 1, by omega⟩
    refine ⟨n, by omega, ?_⟩
    rw [parseOr, ih.parseAnd hpos hrest (by omega)]
    rfl
  | or p _ hr ihl ihr => exact completes_or ihl ihr hr.length_pos
  | @andOfNot ts e h ih =>
    intro rest fuel hfuel
    have hpos := h.length_pos
    obtain ⟨n, rfl⟩ : ∃ n, fuel = n + 1 := ⟨fuel - 1, by omega⟩
    refine ⟨n, by omega, ?_⟩
    rw [parseAnd, ih rest n (by omega)]
    rfl
  | and p _ _ ihl ihr => exact completes_and ihl ihr
  | not p h ih =>
    intro rest fuel hfuel
    rw [List.length_cons] at hfuel
    obtain ⟨n, rfl⟩ : ∃ n, fuel = n + 1 := ⟨fuel - 1, by omega⟩
    rw [List.cons_append, parseNot_not, ih rest n (by omega)]
    rfl
  | notOfPrimary h ih =>
    intro rest fuel hfuel
    have hpos := h.length_pos
    obtain ⟨n, rfl⟩ : ∃ n, fuel = n + 1 := ⟨fuel - 1, by omega⟩
    rw [parseNot_of_not (h.not_startsWith_not rest), ih rest n (by omega)]
  | paren p q h ih => exact completes_paren ih h.length_pos
  | eq | notEq | hasAttr | hasPrefix =>
    intro rest fuel hfuel
    simp only [List.length_cons, List.length_nil] at hfuel
    obtain ⟨n, rfl⟩ : ∃ n, fuel = n + 1 := ⟨fuel - 1, by omega⟩
    rfl

lemma parseTokens_of_derives {ts : Tokens} {e : Expr} (h : Derives .or ts e) :
    parseTokens ts = .ok e := by
  have hempty : ∀ t, ¬ StartsWith t [] := by
    rintro t ⟨_, _, h⟩
    cases h
  have hfuel : 4 * ts.length ≤ 5 * (ts.length + 1) := by omega
  have hparse := h.completes.parseOr h.length_pos (hempty .and) (hempty .or) hfuel
  rw [List.append_nil] at hparse
  rw [parseTokens, hparse]
  rfl

lemma derives_of_parseTokens {ts : Tokens} {e : Expr} (h : parseTokens ts = .ok e) :
    Derives .or ts e := by
  obtain ⟨⟨expr, rest⟩, hparse, hend⟩ := bind_eq_ok.mp h
  obtain ⟨_, hrest, hret⟩ := bind_eq_ok.mp hend
  obtain ⟨used, hts, hd⟩ := (soundAt _).or ts expr rest hparse
  cases hret
  rw [hts, expectEnd_eq_ok hrest, List.append_nil]
  exact hd

/-- The parser accepts a token list exactly if the grammar derives it, with the
expression of the derivation, and no token list derives two expressions. -/
theorem parser_accepts_grammar (ts : Tokens) :
    (∀ e, parseTokens ts = .ok e ↔ Derives .or ts e) ∧
      ∀ e e', Derives .or ts e → Derives .or ts e' → e = e' := by
  refine ⟨fun e => ⟨derives_of_parseTokens, parseTokens_of_derives⟩, fun e e' h h' => ?_⟩
  have heq := (parseTokens_of_derives h).symm.trans (parseTokens_of_derives h')
  exact Except.ok.inj heq

end Deltio
