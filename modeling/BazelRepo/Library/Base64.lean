import Mathlib.Data.List.Basic
import Mathlib.Tactic.Common

namespace Library.Base64

def symbol (value : Nat) : Char :=
  if value < 26 then Char.ofNat (value + 65)
  else if value < 52 then Char.ofNat (value + 71)
  else if value < 62 then Char.ofNat (value - 4)
  else if value = 62 then '+'
  else '/'

def symbolValue (c : Char) : Option Nat :=
  let code := c.toNat
  if 65 ≤ code ∧ code ≤ 90 then some (code - 65)
  else if 97 ≤ code ∧ code ≤ 122 then some (code - 71)
  else if 48 ≤ code ∧ code ≤ 57 then some (code + 4)
  else if c = '+' then some 62
  else if c = '/' then some 63
  else none

theorem symbolValue_symbol : ∀ value < 64, symbolValue (symbol value) = some value := by decide

theorem symbol_ne_padding : ∀ value < 64, symbol value ≠ '=' := by decide

def encode : List UInt8 → List Char
  | [] => []
  | [a] => [symbol (a.toNat / 4), symbol (a.toNat % 4 * 16), '=', '=']
  | [a, b] =>
    [symbol (a.toNat / 4), symbol (a.toNat % 4 * 16 + b.toNat / 16), symbol (b.toNat % 16 * 4), '=']
  | a :: b :: c :: rest =>
    symbol (a.toNat / 4) :: symbol (a.toNat % 4 * 16 + b.toNat / 16) ::
      symbol (b.toNat % 16 * 4 + c.toNat / 64) :: symbol (c.toNat % 64) :: encode rest

/-- The bytes of a text in groups of four characters; padding stands only at its end and covers no bits that are set. -/
def decode : List Char → Option (List UInt8)
  | [] => some []
  | [w, x, '=', '='] => do
    let first ← symbolValue w
    let second ← symbolValue x
    if second % 16 = 0 then some [UInt8.ofNat (first * 4 + second / 16)] else none
  | [w, x, y, '='] => do
    let first ← symbolValue w
    let second ← symbolValue x
    let third ← symbolValue y
    if third % 4 = 0 then some [UInt8.ofNat (first * 4 + second / 16), UInt8.ofNat (second % 16 * 16 + third / 4)]
    else none
  | w :: x :: y :: z :: rest => do
    let first ← symbolValue w
    let second ← symbolValue x
    let third ← symbolValue y
    let fourth ← symbolValue z
    let bytes ← decode rest
    some (UInt8.ofNat (first * 4 + second / 16) :: UInt8.ofNat (second % 16 * 16 + third / 4) ::
      UInt8.ofNat (third % 4 * 64 + fourth) :: bytes)
  | _ => none

theorem ofNat_eq {byte : UInt8} {n : Nat} (same : n = byte.toNat) : UInt8.ofNat n = byte := by
  rw [same, UInt8.ofNat_toNat]

theorem decode_encode (bytes : List UInt8) : decode (encode bytes) = some bytes := by
  induction bytes using encode.induct with
  | case1 => rfl
  | case2 a =>
    have bound := a.toNat_lt
    have first := symbolValue_symbol (a.toNat / 4) (by omega)
    have second := symbolValue_symbol (a.toNat % 4 * 16) (by omega)
    have whole := @ofNat_eq a (a.toNat / 4 * 4 + a.toNat % 4 * 16 / 16) (by omega)
    have clear : a.toNat % 4 * 16 % 16 = 0 := by omega
    simp only [encode, decode, first, second, whole, clear, Option.bind_eq_bind, Option.bind_some, if_true]
  | case3 a b =>
    have bound := a.toNat_lt
    have bound' := b.toNat_lt
    have first := symbolValue_symbol (a.toNat / 4) (by omega)
    have second := symbolValue_symbol (a.toNat % 4 * 16 + b.toNat / 16) (by omega)
    have third := symbolValue_symbol (b.toNat % 16 * 4) (by omega)
    have apart := symbol_ne_padding (b.toNat % 16 * 4) (by omega)
    have one := @ofNat_eq a (a.toNat / 4 * 4 + (a.toNat % 4 * 16 + b.toNat / 16) / 16) (by omega)
    have two := @ofNat_eq b ((a.toNat % 4 * 16 + b.toNat / 16) % 16 * 16 + b.toNat % 16 * 4 / 4) (by omega)
    have clear : b.toNat % 16 * 4 % 4 = 0 := by omega
    rw [encode, decode]
    · simp only [first, second, third, one, two, clear, Option.bind_eq_bind, Option.bind_some, if_true]
    · exact apart
  | case4 a b c rest ih =>
    have bound := a.toNat_lt
    have bound' := b.toNat_lt
    have bound'' := c.toNat_lt
    have first := symbolValue_symbol (a.toNat / 4) (by omega)
    have second := symbolValue_symbol (a.toNat % 4 * 16 + b.toNat / 16) (by omega)
    have third := symbolValue_symbol (b.toNat % 16 * 4 + c.toNat / 64) (by omega)
    have fourth := symbolValue_symbol (c.toNat % 64) (by omega)
    have apart := symbol_ne_padding (c.toNat % 64) (by omega)
    have one := @ofNat_eq a (a.toNat / 4 * 4 + (a.toNat % 4 * 16 + b.toNat / 16) / 16) (by omega)
    have two := @ofNat_eq b ((a.toNat % 4 * 16 + b.toNat / 16) % 16 * 16 + (b.toNat % 16 * 4 + c.toNat / 64) / 4)
      (by omega)
    have three := @ofNat_eq c ((b.toNat % 16 * 4 + c.toNat / 64) % 4 * 64 + c.toNat % 64) (by omega)
    rw [encode, decode]
    · simp only [first, second, third, fourth, one, two, three, ih, Option.bind_eq_bind, Option.bind_some]
    · intro _ padded _
      exact apart padded
    · intro padded _
      exact apart padded

end Library.Base64
