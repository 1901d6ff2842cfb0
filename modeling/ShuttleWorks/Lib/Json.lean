import Mathlib.Data.List.Sort
import ShuttleWorks.Lib.Assoc

/-! JSON values and their compact text with sorted keys, for any way of
escaping the characters of a string. Two escapings are fixed: `escape` writes
every character above the control range as it is, `escapeAscii` writes what
lies past `~` as `\u` escapes. `dumps_eq_iff` says on which values they agree. -/

namespace Lib

/-- The text of a float; JSON numbers are printable ASCII. -/
abbrev NumberText := {s : String // ∀ c ∈ s.toList, c ≤ '~'}

inductive Json
  | null
  | bool (b : Bool)
  | int (n : Int)
  | float (text : NumberText)
  | str (s : String)
  | arr (xs : List Json)
  | obj (kvs : List (String × Json))

abbrev JsonObject := List (String × Json)

namespace Json

mutual

def decEq : (a b : Json) → Decidable (a = b)
  | .null, .null => .isTrue rfl
  | .bool x, .bool y =>
    if h : x = y then .isTrue (h ▸ rfl) else .isFalse (fun e => h (by cases e; rfl))
  | .int x, .int y =>
    if h : x = y then .isTrue (h ▸ rfl) else .isFalse (fun e => h (by cases e; rfl))
  | .float x, .float y =>
    if h : x = y then .isTrue (h ▸ rfl) else .isFalse (fun e => h (by cases e; rfl))
  | .str x, .str y =>
    if h : x = y then .isTrue (h ▸ rfl) else .isFalse (fun e => h (by cases e; rfl))
  | .arr x, .arr y =>
    match decEqItems x y with
    | .isTrue h => .isTrue (h ▸ rfl)
    | .isFalse h => .isFalse (fun e => h (by cases e; rfl))
  | .obj x, .obj y =>
    match decEqMembers x y with
    | .isTrue h => .isTrue (h ▸ rfl)
    | .isFalse h => .isFalse (fun e => h (by cases e; rfl))
  | .null, .bool _ | .null, .int _ | .null, .float _ | .null, .str _ | .null, .arr _
  | .null, .obj _ | .bool _, .null | .bool _, .int _ | .bool _, .float _ | .bool _, .str _
  | .bool _, .arr _ | .bool _, .obj _ | .int _, .null | .int _, .bool _ | .int _, .float _
  | .int _, .str _ | .int _, .arr _ | .int _, .obj _ | .float _, .null | .float _, .bool _
  | .float _, .int _ | .float _, .str _ | .float _, .arr _ | .float _, .obj _ | .str _, .null
  | .str _, .bool _ | .str _, .int _ | .str _, .float _ | .str _, .arr _ | .str _, .obj _
  | .arr _, .null | .arr _, .bool _ | .arr _, .int _ | .arr _, .float _ | .arr _, .str _
  | .arr _, .obj _ | .obj _, .null | .obj _, .bool _ | .obj _, .int _ | .obj _, .float _
  | .obj _, .str _ | .obj _, .arr _ => .isFalse (fun e => by cases e)
termination_by structural a => a

def decEqItems : (a b : List Json) → Decidable (a = b)
  | [], [] => .isTrue rfl
  | [], _ :: _ => .isFalse (fun e => by cases e)
  | _ :: _, [] => .isFalse (fun e => by cases e)
  | x :: xs, y :: ys =>
    match decEq x y, decEqItems xs ys with
    | .isTrue h, .isTrue h' => .isTrue (h ▸ h' ▸ rfl)
    | .isFalse h, _ => .isFalse (fun e => h (by cases e; rfl))
    | _, .isFalse h => .isFalse (fun e => h (by cases e; rfl))
termination_by structural a => a

def decEqMembers : (a b : List (String × Json)) → Decidable (a = b)
  | [], [] => .isTrue rfl
  | [], _ :: _ => .isFalse (fun e => by cases e)
  | _ :: _, [] => .isFalse (fun e => by cases e)
  | x :: xs, y :: ys =>
    match decEqMember x y, decEqMembers xs ys with
    | .isTrue h, .isTrue h' => .isTrue (h ▸ h' ▸ rfl)
    | .isFalse h, _ => .isFalse (fun e => h (by cases e; rfl))
    | _, .isFalse h => .isFalse (fun e => h (by cases e; rfl))
termination_by structural a => a

def decEqMember : (a b : String × Json) → Decidable (a = b)
  | (k, v), (k', v') =>
    if hk : k = k' then
      match decEq v v' with
      | .isTrue h => .isTrue (h ▸ hk ▸ rfl)
      | .isFalse h => .isFalse (fun e => h (by cases e; rfl))
    else .isFalse (fun e => hk (by cases e; rfl))
termination_by structural a => a

end

instance : DecidableEq Json := decEq

def truthy : Json → Bool
  | .null => false
  | .bool b => b
  | .int n => n ≠ 0
  | .float t => t.val ≠ "0.0" ∧ t.val ≠ "-0.0"
  | .str s => s ≠ ""
  | .arr xs => !xs.isEmpty
  | .obj kvs => !kvs.isEmpty

/-! ## Equality as the language compares values -/

/-- Numbers of different types are compared by value, `true` as one. -/
def sameNumber : Json → Json → Bool
  | .int n, .int m => n = m
  | .bool b, .bool c => b = c
  | .int n, .bool b | .bool b, .int n => n = if b then 1 else 0
  | .float s, .float t => s = t
  | .int n, .float t | .float t, .int n => t.val = toString n ++ ".0"
  | .bool b, .float t | .float t, .bool b => t.val = if b then "1.0" else "0.0"
  | _, _ => false

mutual

/-- `==`: the order of an object's members does not count. -/
def same : Json → Json → Bool
  | .null, .null => true
  | .str s, .str t => s = t
  | .arr xs, .arr ys => sameItems xs ys
  | .obj kvs, .obj kvs' => kvs.length = kvs'.length && sameMembers kvs kvs'
  | a, b => sameNumber a b
termination_by structural a => a

def sameItems : List Json → List Json → Bool
  | [], [] => true
  | x :: xs, y :: ys => same x y && sameItems xs ys
  | _, _ => false
termination_by structural xs => xs

def sameMembers : List (String × Json) → List (String × Json) → Bool
  | [], _ => true
  | p :: kvs, kvs' => sameMember p kvs' && sameMembers kvs kvs'
termination_by structural kvs => kvs

def sameMember : String × Json → List (String × Json) → Bool
  | (k, v), kvs =>
    match Assoc.get k kvs with
    | some w => same v w
    | none => false
termination_by structural p => p

end

/-! ## Text -/

/-- The parts one after the other with `sep` between them. -/
def joinWith (sep : Char) : List (List Char) → List Char
  | [] => []
  | [x] => x
  | x :: y :: xs => x ++ sep :: joinWith sep (y :: xs)

/-- A string between quotes, each character escaped by `esc`. -/
def quote (esc : Char → List Char) (s : String) : List Char :=
  '"' :: s.toList.flatMap esc ++ ['"']

mutual

/-- Compact text with sorted keys. -/
def dumps (esc : Char → List Char) : Json → List Char
  | .null => "null".toList
  | .bool true => "true".toList
  | .bool false => "false".toList
  | .int n => (toString n).toList
  | .float t => t.val.toList
  | .str s => quote esc s
  | .arr xs => '[' :: joinWith ',' (dumpsItems esc xs) ++ [']']
  | .obj kvs => '{' :: joinWith ','
      (((dumpsMembers esc kvs).insertionSort (fun p q => p.1 ≤ q.1)).map Prod.snd) ++ ['}']
termination_by structural j => j

def dumpsItems (esc : Char → List Char) : List Json → List (List Char)
  | [] => []
  | x :: xs => dumps esc x :: dumpsItems esc xs
termination_by structural xs => xs

/-- Each member's text, still with the key it is sorted by. -/
def dumpsMembers (esc : Char → List Char) : List (String × Json) → List (String × List Char)
  | [] => []
  | p :: kvs => (p.1, dumpsMember esc p) :: dumpsMembers esc kvs
termination_by structural kvs => kvs

def dumpsMember (esc : Char → List Char) : String × Json → List Char
  | (k, v) => quote esc k ++ ':' :: dumps esc v
termination_by structural p => p

end

def hex4 (n : Nat) : List Char :=
  [Nat.digitChar (n / 4096 % 16), Nat.digitChar (n / 256 % 16), Nat.digitChar (n / 16 % 16),
    Nat.digitChar (n % 16)]

def unicodeEscape (n : Nat) : List Char := '\\' :: 'u' :: hex4 n

/-- Escape quotes, backslashes and control characters; keep the rest. -/
def escape (c : Char) : List Char :=
  if c = '"' then ['\\', '"']
  else if c = '\\' then ['\\', '\\']
  else if c = '\n' then ['\\', 'n']
  else if c = '\r' then ['\\', 'r']
  else if c = '\t' then ['\\', 't']
  else if c.toNat = 12 then ['\\', 'f']
  else if c.toNat = 8 then ['\\', 'b']
  else if c.toNat < 32 then unicodeEscape c.toNat
  else [c]

/-- As `escape`, with everything past `~` as `\u` escapes, in surrogate pairs
beyond the basic plane. -/
def escapeAscii (c : Char) : List Char :=
  if c ≤ '~' then escape c
  else if c.toNat < 0x10000 then unicodeEscape c.toNat
  else unicodeEscape (0xd800 + (c.toNat - 0x10000) / 1024 % 1024) ++
    unicodeEscape (0xdc00 + (c.toNat - 0x10000) % 1024)

mutual

def chars : Json → List Char
  | .null => []
  | .bool _ => []
  | .int _ => []
  | .float _ => []
  | .str s => s.toList
  | .arr xs => charsItems xs
  | .obj kvs => charsMembers kvs
termination_by structural j => j

def charsItems : List Json → List Char
  | [] => []
  | x :: xs => chars x ++ charsItems xs
termination_by structural xs => xs

def charsMembers : List (String × Json) → List Char
  | [] => []
  | p :: kvs => charsMember p ++ charsMembers kvs
termination_by structural kvs => kvs

def charsMember : String × Json → List Char
  | (k, v) => k.toList ++ chars v
termination_by structural p => p

end

/-- No string or key holds a character past `~`. -/
def Plain (j : Json) : Prop := ∀ c ∈ j.chars, c ≤ '~'

instance (j : Json) : Decidable j.Plain := inferInstanceAs (Decidable (∀ c ∈ j.chars, c ≤ '~'))

/-! ## Where the two texts agree -/

theorem mem_joinWith {sep c : Char} {xs : List (List Char)} (h : c ∈ joinWith sep xs) :
    c = sep ∨ ∃ x ∈ xs, c ∈ x := by
  induction xs using joinWith.induct with
  | case1 => simp [joinWith] at h
  | case2 x => exact Or.inr ⟨x, by simp, h⟩
  | case3 x y xs ih =>
    rw [joinWith, List.mem_append, List.mem_cons] at h
    rcases h with h | h | h
    · exact Or.inr ⟨x, by simp, h⟩
    · exact Or.inl h
    · rcases ih h with rfl | ⟨z, hz, hc⟩
      · exact Or.inl rfl
      · exact Or.inr ⟨z, List.mem_cons_of_mem _ hz, hc⟩

theorem mem_joinWith_of_mem {sep c : Char} {x : List Char} {xs : List (List Char)} (hx : x ∈ xs)
    (hc : c ∈ x) : c ∈ joinWith sep xs := by
  induction xs using joinWith.induct with
  | case1 => simp at hx
  | case2 y =>
    rw [List.mem_singleton] at hx
    subst hx
    exact hc
  | case3 y z xs ih =>
    rw [joinWith, List.mem_append, List.mem_cons]
    rcases List.mem_cons.mp hx with rfl | hx
    · exact Or.inl hc
    · exact Or.inr (Or.inr (ih hx))

theorem mem_bracketed {a b c : Char} {l : List Char} :
    c ∈ a :: l ++ [b] ↔ c = a ∨ c ∈ l ∨ c = b := by
  simp

theorem le_tilde_iff {c : Char} : c ≤ '~' ↔ c.toNat ≤ 126 := by
  rw [Char.le_def, UInt32.le_iff_toNat_le]
  rfl

theorem digitChar_le (n : Nat) : Nat.digitChar (n % 16) ≤ '~' := by
  have h : ∀ m < 16, Nat.digitChar m ≤ '~' := by decide
  exact h _ (Nat.mod_lt _ (by omega))

theorem unicodeEscape_le {n : Nat} {c : Char} (h : c ∈ unicodeEscape n) : c ≤ '~' := by
  simp only [unicodeEscape, hex4, List.mem_cons, List.not_mem_nil, or_false] at h
  rcases h with rfl | rfl | rfl | rfl | rfl | rfl
  · decide
  · decide
  all_goals exact digitChar_le _

theorem escape_eq_or_le (c : Char) : escape c = [c] ∨ ∀ d ∈ escape c, d ≤ '~' := by
  unfold escape
  split_ifs
  iterate 7 exact Or.inr (by decide +revert)
  · exact Or.inr fun d hd => unicodeEscape_le hd
  · exact Or.inl rfl

/-- What `escape` writes of a character past `~` is the character itself. -/
theorem mem_escape {c : Char} (hc : ¬ c ≤ '~') : c ∈ escape c := by
  rw [le_tilde_iff] at hc
  have ne : ∀ d : Char, d.toNat ≤ 126 → c ≠ d := fun d hd e => hc (e ▸ hd)
  unfold escape
  rw [if_neg (ne _ (by decide)), if_neg (ne _ (by decide)), if_neg (ne _ (by decide)),
    if_neg (ne _ (by decide)), if_neg (ne _ (by decide)), if_neg (by omega), if_neg (by omega),
    if_neg (by omega)]
  exact List.mem_singleton_self c

theorem escapeAscii_le {c d : Char} (h : d ∈ escapeAscii c) : d ≤ '~' := by
  unfold escapeAscii at h
  split_ifs at h with plain basic
  · rcases escape_eq_or_le c with same | le
    · rw [same, List.mem_singleton] at h
      exact h ▸ plain
    · exact le d h
  · exact unicodeEscape_le h
  · rw [List.mem_append] at h
    exact h.elim unicodeEscape_le unicodeEscape_le

theorem toString_int_le {n : Int} {c : Char} (h : c ∈ (toString n).toList) : c ≤ '~' := by
  have digit : ∀ m : Nat, ∀ d ∈ m.repr.toList, d ≤ '~' := by
    intro m d hd
    rw [Nat.toList_repr] at hd
    have hd := Nat.isDigit_of_mem_toDigits (by decide) (by decide) hd
    have le : d.toNat ≤ 57 := by simpa using (Char.isDigit_iff_toNat.mp hd).2
    rw [le_tilde_iff]
    omega
  rw [show toString n = n.repr from rfl, Int.repr_eq_if] at h
  split at h
  · exact digit _ c h
  · rw [String.toList_append, List.mem_append] at h
    rcases h with h | h
    · rw [show c = '-' by simpa using h]
      decide
    · exact digit _ c h

theorem mem_quote {esc : Char → List Char} {s : String} {c : Char} :
    c ∈ quote esc s ↔ c = '"' ∨ ∃ d ∈ s.toList, c ∈ esc d := by
  rw [quote, mem_bracketed, List.mem_flatMap]
  exact ⟨fun h => h.elim Or.inl Or.symm, fun h => h.imp_right Or.inl⟩

theorem mem_dumps_obj {esc : Char → List Char} {kvs : List (String × Json)} {c : Char}
    (h : c ∈ dumps esc (.obj kvs)) :
    c = '{' ∨ c = '}' ∨ c = ',' ∨ ∃ p ∈ dumpsMembers esc kvs, c ∈ p.2 := by
  rw [dumps, mem_bracketed] at h
  rcases h with h | h | h
  · exact Or.inl h
  · rcases mem_joinWith h with h | ⟨x, hx, hc⟩
    · exact Or.inr (Or.inr (Or.inl h))
    · obtain ⟨p, hp, rfl⟩ := List.mem_map.mp hx
      exact Or.inr (Or.inr (Or.inr ⟨p, (List.mem_insertionSort _).mp hp, hc⟩))
  · exact Or.inr (Or.inl h)

theorem mem_dumps_obj_of_mem {esc : Char → List Char} {kvs : List (String × Json)} {c : Char}
    {p : String × List Char} (hp : p ∈ dumpsMembers esc kvs) (hc : c ∈ p.2) :
    c ∈ dumps esc (.obj kvs) := by
  rw [dumps, mem_bracketed]
  exact Or.inr (Or.inl (mem_joinWith_of_mem
    (List.mem_map_of_mem ((List.mem_insertionSort _).mpr hp)) hc))

mutual

theorem dumps_escapeAscii_le : ∀ (j : Json) {c : Char}, c ∈ dumps escapeAscii j → c ≤ '~'
  | .null, c, h | .bool true, c, h | .bool false, c, h => by
    revert c
    decide
  | .int n, c, h => toString_int_le h
  | .float t, c, h => t.2 c h
  | .str s, c, h => by
    rcases mem_quote.mp h with rfl | ⟨d, -, hc⟩
    · decide
    · exact escapeAscii_le hc
  | .arr xs, c, h => by
    rw [dumps, mem_bracketed] at h
    rcases h with rfl | h | rfl
    · decide
    · rcases mem_joinWith h with rfl | ⟨x, hx, hc⟩
      · decide
      · exact dumpsItems_escapeAscii_le xs hx hc
    · decide
  | .obj kvs, c, h => by
    rcases mem_dumps_obj h with rfl | rfl | rfl | ⟨p, hp, hc⟩
    · decide
    · decide
    · decide
    · exact dumpsMembers_escapeAscii_le kvs hp hc
termination_by structural j => j

theorem dumpsItems_escapeAscii_le : ∀ (xs : List Json) {x : List Char} {c : Char},
    x ∈ dumpsItems escapeAscii xs → c ∈ x → c ≤ '~'
  | [], _, _, hx, _ => by simp [dumpsItems] at hx
  | y :: ys, x, c, hx, hc => by
    rcases List.mem_cons.mp hx with rfl | hx
    · exact dumps_escapeAscii_le y hc
    · exact dumpsItems_escapeAscii_le ys hx hc
termination_by structural xs => xs

theorem dumpsMembers_escapeAscii_le : ∀ (kvs : List (String × Json)) {p : String × List Char}
    {c : Char}, p ∈ dumpsMembers escapeAscii kvs → c ∈ p.2 → c ≤ '~'
  | [], _, _, hp, _ => by simp [dumpsMembers] at hp
  | q :: kvs, p, c, hp, hc => by
    rcases List.mem_cons.mp hp with rfl | hp
    · exact dumpsMember_escapeAscii_le q hc
    · exact dumpsMembers_escapeAscii_le kvs hp hc
termination_by structural kvs => kvs

theorem dumpsMember_escapeAscii_le : ∀ (p : String × Json) {c : Char},
    c ∈ dumpsMember escapeAscii p → c ≤ '~'
  | (k, v), c, h => by
    rw [dumpsMember, List.mem_append, List.mem_cons] at h
    rcases h with h | rfl | h
    · rcases mem_quote.mp h with rfl | ⟨d, -, hc⟩
      · decide
      · exact escapeAscii_le hc
    · decide
    · exact dumps_escapeAscii_le v h
termination_by structural p => p

end

mutual

/-- Every character past `~` of a value is in its text. -/
theorem mem_dumps_escape : ∀ (j : Json) {c : Char}, c ∈ chars j → ¬ c ≤ '~' → c ∈ dumps escape j
  | .null, _, h, _ | .bool _, _, h, _ | .int _, _, h, _ | .float _, _, h, _ => by simp [chars] at h
  | .str s, c, h, hc => mem_quote.mpr (Or.inr ⟨c, h, mem_escape hc⟩)
  | .arr xs, c, h, hc => by
    obtain ⟨x, hx, mem⟩ := mem_dumpsItems_escape xs h hc
    rw [dumps, mem_bracketed]
    exact Or.inr (Or.inl (mem_joinWith_of_mem hx mem))
  | .obj kvs, c, h, hc => by
    obtain ⟨p, hp, mem⟩ := mem_dumpsMembers_escape kvs h hc
    exact mem_dumps_obj_of_mem hp mem
termination_by structural j => j

theorem mem_dumpsItems_escape : ∀ (xs : List Json) {c : Char}, c ∈ charsItems xs → ¬ c ≤ '~' →
    ∃ x ∈ dumpsItems escape xs, c ∈ x
  | [], _, h, _ => by simp [charsItems] at h
  | x :: xs, c, h, hc => by
    rw [charsItems, List.mem_append] at h
    rcases h with h | h
    · exact ⟨_, List.mem_cons_self, mem_dumps_escape x h hc⟩
    · obtain ⟨y, hy, mem⟩ := mem_dumpsItems_escape xs h hc
      exact ⟨y, List.mem_cons_of_mem _ hy, mem⟩
termination_by structural xs => xs

theorem mem_dumpsMembers_escape : ∀ (kvs : List (String × Json)) {c : Char}, c ∈ charsMembers kvs →
    ¬ c ≤ '~' → ∃ p ∈ dumpsMembers escape kvs, c ∈ p.2
  | [], _, h, _ => by simp [charsMembers] at h
  | q :: kvs, c, h, hc => by
    rw [charsMembers, List.mem_append] at h
    rcases h with h | h
    · exact ⟨_, List.mem_cons_self, mem_dumpsMember_escape q h hc⟩
    · obtain ⟨p, hp, mem⟩ := mem_dumpsMembers_escape kvs h hc
      exact ⟨p, List.mem_cons_of_mem _ hp, mem⟩
termination_by structural kvs => kvs

theorem mem_dumpsMember_escape : ∀ (p : String × Json) {c : Char}, c ∈ charsMember p →
    ¬ c ≤ '~' → c ∈ dumpsMember escape p
  | (k, v), c, h, hc => by
    rw [charsMember, List.mem_append] at h
    rw [dumpsMember, List.mem_append, List.mem_cons]
    rcases h with h | h
    · exact Or.inl (mem_quote.mpr (Or.inr ⟨c, h, mem_escape hc⟩))
    · exact Or.inr (Or.inr (mem_dumps_escape v h hc))
termination_by structural p => p

end

theorem quote_congr {esc esc' : Char → List Char} {s : String}
    (h : ∀ c ∈ s.toList, esc c = esc' c) : quote esc s = quote esc' s := by
  unfold quote
  rw [List.flatMap_congr h]

mutual

theorem dumps_congr {esc esc' : Char → List Char} : ∀ (j : Json),
    (∀ c ∈ chars j, esc c = esc' c) → dumps esc j = dumps esc' j
  | .null, _ | .bool true, _ | .bool false, _ | .int _, _ | .float _, _ => rfl
  | .str _, h => quote_congr h
  | .arr xs, h => by rw [dumps, dumps, dumpsItems_congr xs h]
  | .obj kvs, h => by rw [dumps, dumps, dumpsMembers_congr kvs h]
termination_by structural j => j

theorem dumpsItems_congr {esc esc' : Char → List Char} : ∀ (xs : List Json),
    (∀ c ∈ charsItems xs, esc c = esc' c) → dumpsItems esc xs = dumpsItems esc' xs
  | [], _ => rfl
  | x :: xs, h => by
    rw [charsItems, List.forall_mem_append] at h
    rw [dumpsItems, dumpsItems, dumps_congr x h.1, dumpsItems_congr xs h.2]
termination_by structural xs => xs

theorem dumpsMembers_congr {esc esc' : Char → List Char} : ∀ (kvs : List (String × Json)),
    (∀ c ∈ charsMembers kvs, esc c = esc' c) → dumpsMembers esc kvs = dumpsMembers esc' kvs
  | [], _ => rfl
  | p :: kvs, h => by
    rw [charsMembers, List.forall_mem_append] at h
    rw [dumpsMembers, dumpsMembers, dumpsMember_congr p h.1, dumpsMembers_congr kvs h.2]
termination_by structural kvs => kvs

theorem dumpsMember_congr {esc esc' : Char → List Char} : ∀ (p : String × Json),
    (∀ c ∈ charsMember p, esc c = esc' c) → dumpsMember esc p = dumpsMember esc' p
  | (k, v), h => by
    rw [charsMember, List.forall_mem_append] at h
    rw [dumpsMember, dumpsMember, quote_congr h.1, dumps_congr v h.2]
termination_by structural p => p

end

/-- The two texts of a value agree exactly when it is plain: a character past `~` is itself in
the one and cannot be in the other. -/
theorem dumps_eq_iff {j : Json} : dumps escapeAscii j = dumps escape j ↔ j.Plain := by
  constructor
  · intro same c hc
    by_contra past
    have mem := mem_dumps_escape j hc past
    exact past (dumps_escapeAscii_le j (same ▸ mem))
  · intro plain
    refine dumps_congr j fun c hc => ?_
    rw [escapeAscii, if_pos (plain c hc)]

end Json

/-! ## Documents that are read field by field

A key outside the fields is refused, and a missing field gets its default, unless it is required. -/

/-- A field without a default is required. -/
structure Field where
  name : String
  default : Option Json := none

section

variable (fields : List Field) (read : String → Json → Option Json)

/-- The member of one field; `read` refuses or converts a value that is there. -/
def readField (o : JsonObject) (f : Field) : Option (String × Json) :=
  match Assoc.get f.name o with
  | some v => (read f.name v).map (fun v => (f.name, v))
  | none => f.default.map (fun v => (f.name, v))

def readModel (o : JsonObject) : Option JsonObject :=
  if ∀ k ∈ Assoc.keys o, k ∈ fields.map Field.name then fields.mapM (readField read o) else none

end

/-- A document with all its fields, in their order. -/
structure Dto (fields : List Field) where
  members : JsonObject
  complete : Assoc.keys members = fields.map Field.name

namespace Dto

variable {fields : List Field}

def get (key : String) (d : Dto fields) : Json := (Assoc.get key d.members).getD .null

/-- The document with other values for some of its fields. -/
def update (values : JsonObject) (d : Dto fields) : Dto fields where
  members := d.members.map (fun p => (p.1, (Assoc.get p.1 values).getD p.2))
  complete := by
    rw [← d.complete, Assoc.keys, Assoc.keys, List.map_map]
    rfl

end Dto

end Lib
