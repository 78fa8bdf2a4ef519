import Mathlib.Data.List.Sort
import Mathlib.Data.String.Basic
import Scriptlet.Text.NameSet

/-! The order of names, which is that of their bytes, and name sets in this order. -/

set_option autoImplicit false

namespace Scriptlet

/-! Characters come in the order of their bytes -/

theorem ofNat_lt_ofNat_iff {m n : Nat} (small : m < 256) (other : n < 256) :
    UInt8.ofNat m < UInt8.ofNat n ↔ m < n := by
  rw [UInt8.lt_iff_toNat_lt, UInt8.toNat_ofNat', UInt8.toNat_ofNat']
  omega

theorem ofNat_eq_ofNat_iff {m n : Nat} (small : m < 256) (other : n < 256) :
    UInt8.ofNat m = UInt8.ofNat n ↔ m = n := by
  rw [← UInt8.toNat_inj, UInt8.toNat_ofNat', UInt8.toNat_ofNat']
  omega

/-- Of two characters the one with the lower code comes first, whatever follows them. -/
theorem utf8EncodeChar_lt {c d : Char} (lower : c < d) (first second : List UInt8) :
    String.utf8EncodeChar c ++ first < String.utf8EncodeChar d ++ second := by
  have least : c.val.toNat < d.val.toNat := lower
  have most : d.val.toNat < 0x110000 := by
    rcases d.valid with low | ⟨_, high⟩
    · exact Nat.lt_trans low (by decide)
    · exact high
  rw [String.utf8EncodeChar.eq_1, String.utf8EncodeChar.eq_1]
  generalize c.val.toNat = v at *
  generalize d.val.toNat = w at *
  -- each byte behind the first one holds six bits, so what is before them is divided by 64 again
  have twelve (n : Nat) : n / 4096 = n / 64 / 64 := by omega
  have eighteen (n : Nat) : n / 262144 = n / 64 / 64 / 64 := by omega
  simp only [twelve, eighteen]
  -- one case for each pair of lengths
  split_ifs
  all_goals
    simp (disch := omega) only [List.cons_append, List.nil_append, List.cons_lt_cons_iff,
      ofNat_lt_ofNat_iff, ofNat_eq_ofNat_iff]
    omega

def utf8Bytes (name : String) : List UInt8 := name.toUTF8.data.toList

theorem utf8Bytes_eq (name : String) :
    utf8Bytes name = name.toList.flatMap String.utf8EncodeChar := by
  rw [utf8Bytes, String.toUTF8_eq_toByteArray, ← String.ofList_toList (s := name),
    String.toByteArray_ofList, List.utf8Encode, List.toList_data_toByteArray,
    String.toList_ofList]

theorem utf8Bytes_lt {first second : String} (lower : first < second) :
    utf8Bytes first < utf8Bytes second := by
  rw [String.lt_iff] at lower
  rw [utf8Bytes_eq, utf8Bytes_eq]
  generalize first.toList = left at lower
  generalize second.toList = right at lower
  induction lower with
  | @nil c rest =>
    have bytes : String.utf8EncodeChar c ≠ [] := by
      rw [← List.length_pos_iff, String.length_utf8EncodeChar]
      exact c.utf8Size_pos
    obtain ⟨byte, more, starts⟩ := List.exists_cons_of_ne_nil bytes
    rw [List.flatMap_cons, starts]
    exact List.nil_lt_cons byte _
  | rel lower => exact utf8EncodeChar_lt lower _ _
  | cons _ ih => exact List.append_left_lt ih

namespace NameSet

abbrev IsIncreasing (names : List String) : Prop := names.Pairwise (· < ·)

theorem isIncreasing_insert (name : String) {names : List String} (increasing : IsIncreasing names) :
    IsIncreasing (insert name names) := by
  induction names with
  | nil => exact List.pairwise_singleton _ _
  | cons head rest ih =>
    obtain ⟨lower, later⟩ := List.pairwise_cons.1 increasing
    simp only [insert]
    split
    · next before =>
      refine List.pairwise_cons.2 ⟨List.forall_mem_cons.2 ⟨before, ?_⟩, increasing⟩
      exact fun other member => before.trans (lower other member)
    · next notBefore =>
      split
      · exact increasing
      · next differs =>
        have behind : head < name := lt_of_le_of_ne (not_lt.1 notBefore) (Ne.symm differs)
        refine List.pairwise_cons.2 ⟨fun other member => ?_, ih later⟩
        rcases (mem_insert name other rest).1 member with rfl | member
        · exact behind
        · exact lower other member

theorem isIncreasing_ofList (names : List String) : IsIncreasing (ofList names) := by
  induction names with
  | nil => exact .nil
  | cons name names ih => exact isIncreasing_insert name ih

/-- A name set is known by its members. -/
theorem ofList_congr {names others : List String} (same : ∀ name, name ∈ names ↔ name ∈ others) :
    ofList names = ofList others := by
  refine (isIncreasing_ofList names).eq_of_mem_iff (isIncreasing_ofList others) fun name => ?_
  rw [mem_ofList, mem_ofList, same]

end NameSet

end Scriptlet
