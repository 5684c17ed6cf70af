import DatabaseMarkup.Text.Basic
import Mathlib.Data.List.DropRight

/-!
# Reading part by part

The body of a project or of a group of tables is read by taking its first part off again and again,
with blanks between the parts.  `Text.Reaches` says which parts such a reading comes to, and what it
has read before that.  The reading of the whole body is what it has read before a part, followed by
the reading of that part.
-/

namespace DatabaseMarkup.Text

variable {α : Type}

/-- Whether a reading that takes the first part off a text again and again comes to a part of the
text, with the given things read before that part. -/
inductive Reaches (first : Text → α × Text) : Text → List α → Text → Prop
  | here {t part : Text} (ht : skipBlanks t = part) : Reaches first t [] part
  | later {c : Char} {t u part : Text} {before : List α} (ht : skipBlanks t = c :: u)
      (h : Reaches first (first (c :: u)).2 before part) :
      Reaches first t ((first (c :: u)).1 :: before) part

theorem skipBlanks_skipBlanks (t : Text) :
  skipBlanks (skipBlanks t) = skipBlanks t
  := List.dropWhile_idempotent _ _

/-- A part begins behind the blanks in front of it. -/
theorem Reaches.skipBlanks_eq {first : Text → α × Text} {t part : Text} {before : List α}
    (h : Reaches first t before part) :
  skipBlanks part = part
  := by
  induction h with
  | here ht => rw [← ht, skipBlanks_skipBlanks]
  | later _ _ ih => exact ih

section

variable {first : Text → α × Text} {read : Text → List α}
  (hread : ∀ t, read t = match skipBlanks t with
    | [] => []
    | c :: u => (first (c :: u)).1 :: read (first (c :: u)).2)

include hread

/-- The blanks before the first part do not matter. -/
theorem read_skipBlanks (t : Text) :
  read (skipBlanks t) = read t
  := by
  rw [hread, skipBlanks_skipBlanks, ← hread]

/-- What is read of the part stands behind what is read before it. -/
theorem Reaches.read_eq {t part : Text} {before : List α} (h : Reaches first t before part) :
  read t = before ++ read part
  := by
  induction h with
  | here ht => rw [← ht, read_skipBlanks hread, List.nil_append]
  | later ht _ ih => rw [hread, ht, List.cons_append, ← ih]

/-- A thing is read if it is the first one of a part. -/
theorem mem_read_iff (hl : ∀ c u, (first (c :: u)).2.length < (c :: u).length) {t : Text} {a : α} :
  a ∈ read t ↔ ∃ before c u, Reaches first t before (c :: u) ∧ (first (c :: u)).1 = a
  := by
  constructor
  · intro h
    induction hn : t.length using Nat.strongRecOn generalizing t with
    | ind n ih =>
      rw [hread] at h
      cases ht : skipBlanks t with
      | nil =>
        rw [ht] at h
        cases h
      | cons c u =>
        rw [ht] at h
        rcases List.mem_cons.mp h with rfl | h
        · exact ⟨[], c, u, .here ht, rfl⟩
        · have hlt : (first (c :: u)).2.length < n := by
            have hu := length_skipBlanks_le t
            rw [ht] at hu
            exact hn ▸ Nat.lt_of_lt_of_le (hl c u) hu
          obtain ⟨before, d, v, hp, ha⟩ := ih _ hlt h rfl
          exact ⟨_, d, v, .later ht hp, ha⟩
  · rintro ⟨before, c, u, h, rfl⟩
    rw [h.read_eq hread, hread (c :: u), h.skipBlanks_eq]
    exact List.mem_append_right _ List.mem_cons_self

end

end DatabaseMarkup.Text
