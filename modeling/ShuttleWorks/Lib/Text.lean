import Mathlib.Data.List.Basic

/-! Texts put together from parts around a separator: parts free of the separator
can be read back, and numerals are such parts. -/

namespace Lib

def DashFree (s : String) : Prop := '-' ∉ s.toList

instance (s : String) : Decidable (DashFree s) := inferInstanceAs (Decidable (¬ _))

theorem append_cons_inj {α : Type} {a : α} {l l' m m' : List α} (h : a ∉ l) (h' : a ∉ l')
    (e : l ++ a :: m = l' ++ a :: m') : l = l' ∧ m = m' := by
  induction l generalizing l' with
  | nil =>
    cases l' with
    | nil => exact ⟨rfl, (List.cons.inj e).2⟩
    | cons b l' =>
      have : a = b := (List.cons.inj e).1
      exact absurd List.mem_cons_self (this ▸ h')
  | cons b l ih =>
    cases l' with
    | nil =>
      have : b = a := (List.cons.inj e).1
      exact absurd List.mem_cons_self (this ▸ h)
    | cons c l' =>
      obtain ⟨hb, ht⟩ := List.cons.inj e
      obtain ⟨hl, hm⟩ := ih (fun hm => h (List.mem_cons_of_mem _ hm))
        (fun hm => h' (List.mem_cons_of_mem _ hm)) ht
      exact ⟨by rw [hb, hl], hm⟩

theorem dash_inj {a b c d : String} (ha : DashFree a) (hc : DashFree c)
    (e : a ++ "-" ++ b = c ++ "-" ++ d) : a = c ∧ b = d := by
  have lists := congrArg String.toList e
  simp only [String.toList_append] at lists
  have dash : "-".toList = ['-'] := rfl
  rw [dash, List.append_assoc, List.append_assoc] at lists
  obtain ⟨h, h'⟩ := append_cons_inj ha hc lists
  exact ⟨String.toList_inj.mp h, String.toList_inj.mp h'⟩

theorem toList_toString (n : Nat) : (toString n).toList = Nat.toDigits 10 n :=
  Nat.toList_repr

theorem dashFree_toString (n : Nat) : DashFree (toString n) := by
  intro h
  rw [toList_toString] at h
  have := Nat.isDigit_of_mem_toDigits (by decide) (by decide) h
  simp at this

theorem toString_injective {n m : Nat} (h : toString n = toString m) : n = m := by
  have lists := congrArg String.toList h
  rw [toList_toString, toList_toString] at lists
  have := congrArg (fun l => Nat.ofDigitChars 10 l 0) lists
  simpa only [Nat.ofDigitChars_ten_toDigits] using this

/-! ## Texts of digits

A character may be a digit without being decimal (a superscript, a circled digit): such a text
counts as digits, but has no number. -/

def decimalZeros : List Nat :=
  [0x30, 0x660, 0x6f0, 0x7c0, 0x966, 0x9e6, 0xa66, 0xae6, 0xb66, 0xbe6, 0xc66, 0xce6, 0xd66,
    0xde6, 0xe50, 0xed0, 0xf20, 0x1040, 0x1090, 0x17e0, 0x1810, 0x1946, 0x19d0, 0x1a80, 0x1a90,
    0x1b50, 0x1bb0, 0x1c40, 0x1c50, 0xa620, 0xa8d0, 0xa900, 0xa9d0, 0xa9f0, 0xaa50, 0xabf0,
    0xff10, 0x104a0, 0x10d30, 0x11066, 0x110f0, 0x11136, 0x111d0, 0x112f0, 0x11450, 0x114d0,
    0x11650, 0x116c0, 0x11730, 0x118e0, 0x11950, 0x11c50, 0x11d50, 0x11da0, 0x11f50, 0x16a60,
    0x16ac0, 0x16b50, 0x1d7ce, 0x1d7d8, 0x1d7e2, 0x1d7ec, 0x1d7f6, 0x1e140, 0x1e2f0, 0x1e4f0,
    0x1e950, 0x1fbf0]

def otherDigits : List (Nat × Nat) :=
  [(0xb2, 0xb3), (0xb9, 0xb9), (0x1369, 0x1371), (0x19da, 0x19da), (0x2070, 0x2070),
    (0x2074, 0x2079), (0x2080, 0x2089), (0x2460, 0x2468), (0x2474, 0x247c), (0x2488, 0x2490),
    (0x24ea, 0x24ea), (0x24f5, 0x24fd), (0x24ff, 0x24ff), (0x2776, 0x277e), (0x2780, 0x2788),
    (0x278a, 0x2792), (0x10a40, 0x10a43), (0x10e60, 0x10e68), (0x11052, 0x1105a),
    (0x1f100, 0x1f10a)]

def decimalValue (c : Char) : Option Nat :=
  (decimalZeros.find? fun z => z ≤ c.toNat ∧ c.toNat < z + 10).map (c.toNat - ·)

/-- A decimal digit, as `\d` matches it. -/
def isDecimal (c : Char) : Bool := (decimalValue c).isSome

/-- One character of a text that `str.isdigit` accepts. -/
def isDigit (c : Char) : Bool :=
  isDecimal c || otherDigits.any fun run => run.1 ≤ c.toNat ∧ c.toNat ≤ run.2

/-- `str.isdigit` -/
def isdigit (s : List Char) : Bool := !s.isEmpty && s.all isDigit

/-- `int(s)` of a text of digits: no number where a digit is not decimal. -/
def int (s : List Char) : Option Nat :=
  (s.mapM decimalValue).map fun digits => digits.foldl (fun n d => 10 * n + d) 0

theorem decimalValue_of_isDigit {c : Char} (h : c.isDigit) :
    decimalValue c = some (c.toNat - '0'.toNat) := by
  have range : 48 ≤ c.toNat ∧ c.toNat < 58 := by
    rw [Char.isDigit_iff_toNat] at h
    exact ⟨h.1, Nat.lt_succ_of_le h.2⟩
  rw [decimalValue, decimalZeros, List.find?_cons_of_pos (by simpa using range)]
  rfl

variable {s : List Char}

theorem mapM_decimalValue (h : ∀ c ∈ s, c.isDigit) :
    s.mapM decimalValue = some (s.map fun c => c.toNat - '0'.toNat) := by
  induction s with
  | nil => rfl
  | cons c s ih =>
    rw [List.mapM_cons, decimalValue_of_isDigit (h c List.mem_cons_self),
      ih fun c' hc' => h c' (List.mem_cons_of_mem _ hc')]
    rfl

theorem int_toDigits (n : Nat) : int (Nat.toDigits 10 n) = some n := by
  have digits : ∀ c ∈ Nat.toDigits 10 n, c.isDigit := by
    intro c hc
    exact Nat.isDigit_of_mem_toDigits (by decide) (by decide) hc
  rw [int, mapM_decimalValue digits, Option.map_some, List.foldl_map]
  rw [← Nat.ofDigitChars_eq_foldl, Nat.ofDigitChars_ten_toDigits]

theorem isdigit_toDigits (n : Nat) : isdigit (Nat.toDigits 10 n) := by
  have nonempty : Nat.toDigits 10 n ≠ [] := Nat.toDigits_ne_nil
  have all : (Nat.toDigits 10 n).all isDigit := by
    apply List.all_eq_true.mpr
    intro c hc
    have digit : c.isDigit := Nat.isDigit_of_mem_toDigits (by decide) (by decide) hc
    simp [isDigit, isDecimal, decimalValue_of_isDigit digit]
  simp [isdigit, nonempty, all]

theorem int_isSome_iff : (int s).isSome ↔ ∀ c ∈ s, isDecimal c := by
  rw [int, Option.isSome_map]
  induction s with
  | nil => simp
  | cons c s ih =>
    rw [List.mapM_cons, List.forall_mem_cons, ← ih, isDecimal]
    cases decimalValue c with
    | none => simp
    | some d => cases s.mapM decimalValue <;> simp

end Lib
