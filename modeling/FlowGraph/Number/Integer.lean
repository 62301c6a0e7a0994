import FlowGraph.Dict

/-! Integers of a fixed width, with their decimal texts. -/

namespace FlowGraph

inductive IntKind where
  | i8
  | i16
  | i32
  | i64
  | i128
  | isize
  | u8
  | u16
  | u32
  | u64
  | u128
  | usize
  deriving DecidableEq

namespace IntKind

def low : IntKind → Int
  | i8 => -128
  | i16 => -32768
  | i32 => -2147483648
  | i64 | isize => -9223372036854775808
  | i128 => -170141183460469231731687303715884105728
  | _ => 0

def high : IntKind → Int
  | i8 => 127
  | i16 => 32767
  | i32 => 2147483647
  | i64 | isize => 9223372036854775807
  | i128 => 170141183460469231731687303715884105727
  | u8 => 255
  | u16 => 65535
  | u32 => 4294967295
  | u64 | usize => 18446744073709551615
  | u128 => 340282366920938463463374607431768211455

def tag : IntKind → String
  | i8 => "i8"
  | i16 => "i16"
  | i32 => "i32"
  | i64 => "i64"
  | i128 => "i128"
  | isize => "isize"
  | u8 => "u8"
  | u16 => "u16"
  | u32 => "u32"
  | u64 => "u64"
  | u128 => "u128"
  | usize => "usize"

end IntKind

structure Bounded (kind : IntKind) where
  value : Int
  low_le : kind.low ≤ value
  le_high : value ≤ kind.high
  deriving DecidableEq

def Bounded.ofInt? {kind : IntKind} (value : Int) : Option (Bounded kind) :=
  if within : kind.low ≤ value ∧ value ≤ kind.high then some ⟨value, within.1, within.2⟩ else none

namespace Bounded

def number (text : String) : Int :=
  match text.toList with
  | '-' :: digits => -Nat.ofDigitChars 10 digits 0
  | digits => Nat.ofDigitChars 10 digits 0

theorem digits_ne_minus {n : Nat} {rest : List Char} : Nat.toDigits 10 n ≠ '-' :: rest := by
  intro same
  have among : '-' ∈ Nat.toDigits 10 n := same ▸ List.mem_cons_self
  exact absurd (Nat.isDigit_of_mem_toDigits (by decide) (by decide) among) (by decide)

theorem number_toString (n : Int) : number (toString n) = n := by
  unfold number
  cases n with
  | ofNat n =>
    have digits : (toString (Int.ofNat n)).toList = Nat.toDigits 10 n := by
      simp [toString, Int.repr, Nat.repr]
    rw [digits]
    split
    · rename_i same
      exact absurd same digits_ne_minus
    · rw [Nat.ofDigitChars_ten_toDigits]
      rfl
  | negSucc n =>
    have digits : (toString (Int.negSucc n)).toList = '-' :: Nat.toDigits 10 (n + 1) := by
      simp [toString, Int.repr, Nat.repr]
    rw [digits]
    show -((Nat.ofDigitChars 10 (Nat.toDigits 10 (n + 1)) 0 : Nat) : Int) = Int.negSucc n
    rw [Nat.ofDigitChars_ten_toDigits]
    rfl

theorem text_injective {kind : IntKind} {a b : Bounded kind} (same : toString a.value = toString b.value) :
    a = b := by
  have values : a.value = b.value := by rw [← number_toString a.value, same, number_toString]
  cases a
  cases b
  cases values
  rfl

instance (kind : IntKind) : Key (Bounded kind) := ⟨fun n => toString n.value, text_injective⟩

end Bounded

end FlowGraph
