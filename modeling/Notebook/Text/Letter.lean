/-!
# Letters and texts

A text is a row of letters.  A letter is a character or, where a text was not put together with
care, one half of a surrogate pair; the halves of a pair may stand side by side without being the
character that the pair stands for.
-/

namespace Notebook

inductive Letter
  | char (c : Char)
  /-- The half of a pair with the code point `0xD800 + n`. -/
  | half (n : Fin 0x800)
  deriving DecidableEq, Repr

namespace Letter

instance : Coe Char Letter := ⟨char⟩

instance : Inhabited Letter := ⟨' '⟩

/-- The code point. -/
def toNat : Letter → Nat
  | char c => c.toNat
  | half n => 0xD800 + n

/-- The letter with a code point. -/
def ofNat (n : Nat) : Letter :=
  if h : 0xD800 ≤ n ∧ n ≤ 0xDFFF then half ⟨n - 0xD800, by omega⟩ else char (Char.ofNat n)

instance : LE Letter := ⟨fun a b => a.toNat ≤ b.toNat⟩

instance (a b : Letter) : Decidable (a ≤ b) := inferInstanceAs (Decidable (a.toNat ≤ b.toNat))

instance : LT Letter := ⟨fun a b => a.toNat < b.toNat⟩

instance (a b : Letter) : Decidable (a < b) := inferInstanceAs (Decidable (a.toNat < b.toNat))

/-- Is it the first half of a pair? -/
def isHigh : Letter → Bool
  | char _ => false
  | half n => n.val < 0x400

/-- Is it the second half of a pair? -/
def isLow : Letter → Bool
  | char _ => false
  | half n => 0x400 ≤ n.val

/-! ### Letters of ASCII -/

def isAlpha : Letter → Bool
  | char c => c.isAlpha
  | half _ => false

def isUpper : Letter → Bool
  | char c => c.isUpper
  | half _ => false

def toLower : Letter → Letter
  | char c => char c.toLower
  | half n => half n

def toUpper : Letter → Letter
  | char c => char c.toUpper
  | half n => half n

@[simp] theorem char_beq_char (c d : Char) : (char c == char d) = (c == d) := by
  rw [Bool.eq_iff_iff, beq_iff_eq, beq_iff_eq, char.injEq]

theorem ofNat_toNat (l : Letter) : ofNat l.toNat = l := by
  cases l with
  | char c =>
    have hc : ¬ (0xD800 ≤ c.toNat ∧ c.toNat ≤ 0xDFFF) := by
      have hvalid := c.valid
      simp only [UInt32.isValidChar, Nat.isValidChar] at hvalid
      show ¬ (0xD800 ≤ c.val.toNat ∧ c.val.toNat ≤ 0xDFFF)
      omega
    rw [toNat, ofNat, dif_neg hc, Char.ofNat_toNat]
  | half n =>
    have hn : 0xD800 ≤ 0xD800 + n.val ∧ 0xD800 + n.val ≤ 0xDFFF := by omega
    rw [toNat, ofNat, dif_pos hn]
    exact congrArg half (Fin.ext (Nat.add_sub_cancel_left ..))

theorem toNat_ofNat {n : Nat} (h : n < 0x110000) : (ofNat n).toNat = n := by
  unfold ofNat
  split
  · next hn => exact Nat.add_sub_cancel' hn.1
  · next hn =>
    have hvalid : n.isValidChar := by
      unfold Nat.isValidChar
      omega
    rw [toNat, Char.ofNat, dif_pos hvalid]
    rfl

theorem ofNat_of_le {n : Nat} (h : 0x110000 ≤ n) : ofNat n = char (Char.ofNat 0) := by
  have hhalf : ¬ (0xD800 ≤ n ∧ n ≤ 0xDFFF) := by omega
  have hvalid : ¬ n.isValidChar := by
    unfold Nat.isValidChar
    omega
  rw [ofNat, dif_neg hhalf, Char.ofNat, dif_neg hvalid]
  rfl

end Letter

structure Text where
  ofList ::
  toList : List Letter
  deriving DecidableEq, Repr

namespace Text

def ofChars (cs : List Char) : Text := ofList (cs.map .char)

def ofString (s : String) : Text := ofChars s.toList

instance : Coe String Text := ⟨ofString⟩

instance : Inhabited Text := ⟨""⟩

instance : Append Text := ⟨fun s t => ofList (s.toList ++ t.toList)⟩

def length (s : Text) : Nat := s.toList.length

def isEmpty (s : Text) : Bool := s.toList.isEmpty

/-- The texts one after the other, with `sep` between any two of them. -/
def intercalate (sep : Text) : List Text → Text
  | [] => ""
  | [s] => s
  | s :: t :: r => s ++ sep ++ intercalate sep (t :: r)

def join (ss : List Text) : Text := ofList (ss.flatMap toList)

/-- The characters of letters that are all characters. -/
def chars? : List Letter → Option (List Char)
  | [] => some []
  | .char c :: r => (chars? r).map (c :: ·)
  | .half _ :: _ => none

@[simp] theorem toList_ofList (ls : List Letter) : (ofList ls).toList = ls := rfl

@[simp] theorem ofList_toList (s : Text) : ofList s.toList = s := rfl

@[simp] theorem toList_ofChars (cs : List Char) : (ofChars cs).toList = cs.map .char := rfl

@[simp] theorem toList_ofString (s : String) : (ofString s).toList = s.toList.map .char := rfl

@[simp] theorem toList_append (s t : Text) : (s ++ t).toList = s.toList ++ t.toList := rfl

@[ext] theorem ext {s t : Text} (h : s.toList = t.toList) : s = t :=
  congrArg ofList h

@[simp] theorem ofList_inj {ls ls' : List Letter} : ofList ls = ofList ls' ↔ ls = ls' :=
  ⟨congrArg toList, congrArg ofList⟩

@[simp] theorem intercalate_nil (sep : Text) : intercalate sep [] = "" := rfl

@[simp] theorem intercalate_singleton (sep s : Text) : intercalate sep [s] = s := rfl

theorem intercalate_cons_cons (sep s t : Text) (ss : List Text) :
    intercalate sep (s :: t :: ss) = s ++ sep ++ intercalate sep (t :: ss) := rfl

theorem toList_intercalate (sep : Text) (ss : List Text) :
    (intercalate sep ss).toList = sep.toList.intercalate (ss.map toList) := by
  fun_induction intercalate sep ss with
  | case1 => rfl
  | case2 s => simp [List.intercalate]
  | case3 s t r ih =>
    simp only [List.intercalate, List.map_cons, toList_append] at ih ⊢
    rw [ih]
    simp

theorem empty_append (s : Text) : "" ++ s = s := rfl

theorem isEmpty_iff {s : Text} : s.isEmpty = true ↔ s = "" := by
  rw [isEmpty, List.isEmpty_iff]
  exact ⟨fun h => ext h, congrArg toList⟩

@[simp] theorem chars?_map_char (cs : List Char) : chars? (cs.map .char) = some cs := by
  induction cs with
  | nil => rfl
  | cons c cs ih => rw [List.map_cons, chars?, ih, Option.map_some]

theorem chars?_eq_some_iff {ls : List Letter} {cs : List Char} :
    chars? ls = some cs ↔ ls = cs.map .char := by
  refine ⟨fun h => ?_, fun h => h ▸ chars?_map_char cs⟩
  fun_induction chars? ls generalizing cs with
  | case1 =>
    cases h
    rfl
  | case2 c r ih =>
    obtain ⟨ds, hds, rfl⟩ := Option.map_eq_some_iff.mp h
    rw [ih hds, List.map_cons]
  | case3 => cases h

@[simp] theorem length_toList (s : Text) : s.toList.length = s.length := rfl

/-! ### Ranges of code points -/

/-- Is `n` in one of the ranges?  They rise, so the search ends at the first one beyond `n`. -/
def inRanges : List (Nat × Nat) → Nat → Bool
  | [], _ => false
  | (first, last) :: rs, n => if n < first then false else n ≤ last || inRanges rs n

@[simp] theorem inRanges_nil (n : Nat) : inRanges [] n = false := rfl

end Text

end Notebook
