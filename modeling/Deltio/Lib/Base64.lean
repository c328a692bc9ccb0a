import Mathlib.Data.List.Basic
import Mathlib.Data.String.Basic

namespace Deltio.Lib.Base64

def alphabet : List Char :=
  "ABCDEFGHIJKLMNOPQRSTUVWXYZabcdefghijklmnopqrstuvwxyz0123456789+/".toList

def symbol (n : ℕ) : Char := alphabet.getD n '='

def digit (c : Char) : Option ℕ := alphabet.findIdx? (· == c)

lemma digit_symbol {n : ℕ} (h : n < 64) : digit (symbol n) = some n := by
  have hall : ∀ n : Fin 64, digit (symbol n) = some n.val := by decide +kernel
  exact hall ⟨n, h⟩

lemma symbol_ne_pad {n : ℕ} (h : n < 64) : symbol n ≠ '=' := by
  have hall : ∀ n : Fin 64, symbol n ≠ '=' := by decide +kernel
  exact hall ⟨n, h⟩

def encodeList : List UInt8 → List Char
  | [] => []
  | [a] => [symbol (a.toNat / 4), symbol (a.toNat % 4 * 16), '=', '=']
  | [a, b] =>
    let n := a.toNat * 256 + b.toNat
    [symbol (n / 1024), symbol (n / 16 % 64), symbol (n % 16 * 4), '=']
  | a :: b :: c :: rest =>
    let n := a.toNat * 65536 + b.toNat * 256 + c.toNat
    symbol (n / 262144) :: symbol (n / 4096 % 64) :: symbol (n / 64 % 64) :: symbol (n % 64) ::
      encodeList rest

def oneByte (d₀ d₁ : ℕ) : Option (List UInt8) :=
  if d₁ % 16 = 0 then some [.ofNat (d₀ * 4 + d₁ / 16)] else none

def twoBytes (d₀ d₁ d₂ : ℕ) : Option (List UInt8) :=
  let n := d₀ * 1024 + d₁ * 16 + d₂ / 4
  if d₂ % 4 = 0 then some [.ofNat (n / 256), .ofNat (n % 256)] else none

def threeBytes (d₀ d₁ d₂ d₃ : ℕ) : List UInt8 :=
  let n := d₀ * 262144 + d₁ * 4096 + d₂ * 64 + d₃
  [.ofNat (n / 65536), .ofNat (n / 256 % 256), .ofNat (n % 256)]

def decodeList : List Char → Option (List UInt8)
  | [] => some []
  | c₀ :: c₁ :: c₂ :: c₃ :: rest =>
    if c₃ = '=' then
      -- pads end the text
      if !rest.isEmpty then none
      else if c₂ = '=' then do oneByte (← digit c₀) (← digit c₁)
      else do twoBytes (← digit c₀) (← digit c₁) (← digit c₂)
    else do
      let group := threeBytes (← digit c₀) (← digit c₁) (← digit c₂) (← digit c₃)
      return group ++ (← decodeList rest)
  | _ => none

def encode (bytes : List UInt8) : String := String.ofList (encodeList bytes)

def decode (text : String) : Option (List UInt8) := decodeList text.toList

lemma ofNat_eq {n : ℕ} {a : UInt8} (h : n = a.toNat) : UInt8.ofNat n = a := by
  rw [h, UInt8.ofNat_toNat]

lemma decodeList_one (a : UInt8) :
    decodeList [symbol (a.toNat / 4), symbol (a.toNat % 4 * 16), '=', '='] = some [a] := by
  have ha := a.toNat_lt
  have hpad : a.toNat % 4 * 16 % 16 = 0 := by omega
  have hbyte : UInt8.ofNat (a.toNat / 4 * 4 + a.toNat % 4 * 16 / 16) = a := ofNat_eq (by omega)
  simp only [decodeList, List.isEmpty_nil, Bool.not_true, Bool.false_eq_true, if_false, if_true,
    digit_symbol (by omega : a.toNat / 4 < 64), digit_symbol (by omega : a.toNat % 4 * 16 < 64),
    Option.bind_eq_bind, Option.bind_some, oneByte, hpad, hbyte]

lemma decodeList_two {a b : UInt8} {n : ℕ} (hn : n = a.toNat * 256 + b.toNat) :
    decodeList [symbol (n / 1024), symbol (n / 16 % 64), symbol (n % 16 * 4), '='] =
      some [a, b] := by
  have ha := a.toNat_lt
  have hb := b.toNat_lt
  have hpad : n % 16 * 4 % 4 = 0 := by omega
  have hgroup : n / 1024 * 1024 + n / 16 % 64 * 16 + n % 16 * 4 / 4 = n := by omega
  have hfirst : UInt8.ofNat (n / 256) = a := ofNat_eq (by omega)
  have hsecond : UInt8.ofNat (n % 256) = b := ofNat_eq (by omega)
  simp only [decodeList, List.isEmpty_nil, Bool.not_true, Bool.false_eq_true, if_false, if_true,
    symbol_ne_pad (by omega : n % 16 * 4 < 64), digit_symbol (by omega : n / 1024 < 64),
    digit_symbol (by omega : n / 16 % 64 < 64), digit_symbol (by omega : n % 16 * 4 < 64),
    Option.bind_eq_bind, Option.bind_some, twoBytes, hpad, hgroup, hfirst, hsecond]

lemma decodeList_three {a b c : UInt8} {n : ℕ}
    (hn : n = a.toNat * 65536 + b.toNat * 256 + c.toNat) (rest : List Char) :
    decodeList (symbol (n / 262144) :: symbol (n / 4096 % 64) :: symbol (n / 64 % 64) ::
      symbol (n % 64) :: rest) = (decodeList rest).map fun bytes => a :: b :: c :: bytes := by
  have ha := a.toNat_lt
  have hb := b.toNat_lt
  have hc := c.toNat_lt
  have hgroup : n / 262144 * 262144 + n / 4096 % 64 * 4096 + n / 64 % 64 * 64 + n % 64 = n := by
    omega
  have hfirst : UInt8.ofNat (n / 65536) = a := ofNat_eq (by omega)
  have hsecond : UInt8.ofNat (n / 256 % 256) = b := ofNat_eq (by omega)
  have hthird : UInt8.ofNat (n % 256) = c := ofNat_eq (by omega)
  simp only [decodeList, symbol_ne_pad (by omega : n % 64 < 64), if_false,
    digit_symbol (by omega : n / 262144 < 64), digit_symbol (by omega : n / 4096 % 64 < 64),
    digit_symbol (by omega : n / 64 % 64 < 64), digit_symbol (by omega : n % 64 < 64),
    Option.bind_eq_bind, Option.bind_some, threeBytes, hgroup, hfirst, hsecond, hthird]
  cases decodeList rest <;> rfl

lemma decodeList_encodeList (bytes : List UInt8) : decodeList (encodeList bytes) = some bytes := by
  fun_induction encodeList bytes with
  | case1 => rfl
  | case2 a => exact decodeList_one a
  | case3 a b n => exact decodeList_two rfl
  | case4 a b c rest n ih =>
    rw [decodeList_three rfl, ih]
    rfl

theorem decode_encode (bytes : List UInt8) : decode (encode bytes) = some bytes := by
  unfold decode encode
  rw [String.toList_ofList]
  exact decodeList_encodeList bytes

end Deltio.Lib.Base64
