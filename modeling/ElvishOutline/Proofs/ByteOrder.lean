import ElvishOutline.Proofs.JoinedPaths
import ElvishOutline.Text.Utf8

/-!
# The order of names and of their bytes

Entries of a directory are sorted by their names, character by character. The bytes of a character
with a greater code come later, whatever follows them, so this is also the order of the bytes of the
names. Paths are compared component by component, each by its bytes.
-/

namespace ElvishOutline

namespace Text

/-- The bytes of a character come before those of a greater one, whatever follows either. -/
theorem utf8EncodeChar_append_lt {c d : Char} (h : c < d) (xs ys : List UInt8) :
    String.utf8EncodeChar c ++ xs < String.utf8EncodeChar d ++ ys := by
  have hlt : c.val.toNat < d.val.toNat := UInt32.lt_iff_toNat_lt.mp (Char.lt_def.mp h)
  have hbound : d.val.toNat < 1114112 := by
    have := d.valid
    simp only [UInt32.isValidChar, Nat.isValidChar] at this
    omega
  unfold String.utf8EncodeChar
  generalize c.val.toNat = v at hlt
  generalize d.val.toNat = w at hlt hbound
  -- The digits to base 64, each from the quotient that the next one is taken of.
  have hdigits (n : Nat) : n / 4096 = n / 64 / 64 ∧ n / 262144 = n / 64 / 64 / 64 := by omega
  simp only [(hdigits v).1, (hdigits v).2, (hdigits w).1, (hdigits w).2]
  split_ifs <;>
    simp only [List.cons_append, List.nil_append, List.cons_lt_cons_iff, UInt8.lt_iff_toNat_lt,
      ← UInt8.toNat_inj, UInt8.toNat_ofNat'] <;>
    omega

/-- Texts are ordered as their bytes are. -/
theorem utf8_lt_utf8 {xs ys : List Char} (h : xs < ys) : utf8 xs < utf8 ys := by
  induction xs generalizing ys with
  | nil =>
    cases ys with
    | nil => exact absurd h (List.not_lt_nil _)
    | cons d ds =>
      have hne : String.utf8EncodeChar d ≠ [] := String.utf8EncodeChar_ne_nil
      obtain ⟨b, bs, hd⟩ := List.exists_cons_of_ne_nil hne
      rw [utf8, utf8, List.flatMap_cons, hd]
      exact List.nil_lt_cons b _
  | cons c cs ih =>
    cases ys with
    | nil => exact absurd h (List.not_lt_nil _)
    | cons d ds =>
      rcases List.cons_lt_cons_iff.mp h with hlt | ⟨rfl, hrest⟩
      · exact utf8EncodeChar_append_lt hlt _ _
      · exact List.append_left_lt (ih hrest)

end Text

namespace Path

/-- How a component is written. -/
def Component.written : Component → String
  | .root => "/"
  | .current => "."
  | .parent => ".."
  | .name text => text

/-- A segment is written as the component that it stands for. -/
@[simp] theorem written_component (s : String) : (component s).written = s := by
  unfold component
  split
  · next h => exact h.symm
  · rfl

/-- The bytes of each component of a path. -/
def componentBytes (p : Path) : List (List UInt8) :=
  p.components.map fun c => Text.utf8 c.written.toList

/-- Relative paths are ordered as the lists of their names. -/
theorem componentBytes_build_lt {names names' : List String}
    (hnames : ∀ name ∈ names, isSilent name = false)
    (hnames' : ∀ name ∈ names', isSilent name = false) (h : names < names') :
    (build none names).componentBytes < (build none names').componentBytes := by
  rw [componentBytes, componentBytes, components_build_none hnames, components_build_none hnames',
    List.map_map, List.map_map]
  refine List.map_lt ?_ h
  intro s t hst
  simp only [Function.comp_apply, written_component]
  exact Text.utf8_lt_utf8 (String.lt_iff.mp hst)

end Path

end ElvishOutline
