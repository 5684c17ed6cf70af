import DatabaseMarkup.Proofs.Block.Seam
import DatabaseMarkup.Proofs.Checked.Segment
import DatabaseMarkup.Proofs.Text.Literal
import DatabaseMarkup.Proofs.Text.Name
import DatabaseMarkup.Proofs.Text.Pairing

/-!
# Two readers of bracket groups

`Settings.readGroups` looks for the end of every bracket group by itself, in the text that it is
given, and `Segment.headerSettings?` takes it from the pairs of the whole document.
`header_settings_agree_with_groups` states that both read the same wherever the pass over the pairs
stands outside of literals, as long as the groups are closed, and that the second one gives up
exactly where the first one comes to a group that is not.

The step is one group: if the pass stands before a bracket, then both find the same end of it
(`ReachedAt.splitGroup?_eq`), and the pass stands behind it again (`ReachedAt.behind_group`).
-/

namespace DatabaseMarkup

open Text

/-! ## Runs of groups -/

/-- Whether a text begins with closed bracket groups, of which the given texts are the insides, and
the last text follows them. -/
inductive ClosedGroups : Text → List Text → Text → Prop
  | nil {t : Text} : ClosedGroups t [] t
  | cons {t inner u rest : Text} {inners : List Text}
      (hb : (skipBlanks t).head? = some '[')
      (hg : splitGroup? (skipBlanks t) = some (inner, u))
      (h : ClosedGroups u inners rest) :
      ClosedGroups t (inner :: inners) rest

/-- Whether all groups at the start of a text are closed. -/
def EveryGroupCloses (t : Text) : Prop :=
  ∃ inners rest, ClosedGroups t inners rest ∧ (skipBlanks rest).head? ≠ some '['

/-- Whether the groups at the start of a text lead to one that is not closed. -/
def LeadsToUnclosedGroup (t : Text) : Prop :=
  ∃ inners rest, ClosedGroups t inners rest ∧ (skipBlanks rest).head? = some '['
    ∧ splitGroup? (skipBlanks rest) = none

/-- Either every group in a row closes, or the row leads to one that does not. -/
theorem everyGroupCloses_or (t : Text) :
  EveryGroupCloses t ∨ LeadsToUnclosedGroup t
  := by
  fun_induction Settings.readGroups t with
  | case1 t hb inner u hg _ _ _ ih =>
    rcases ih with ⟨inners, rest, h, hr⟩ | ⟨inners, rest, h, hr⟩
    · exact .inl ⟨inner :: inners, rest, .cons hb hg h, hr⟩
    · exact .inr ⟨inner :: inners, rest, .cons hb hg h, hr⟩
  | case2 t hb hg => exact .inr ⟨[], t, .nil, hb, hg⟩
  | case3 t hb => exact .inl ⟨[], t, .nil, hb⟩

namespace Settings

theorem readGroups_cons {t inner u : Text} (hb : (skipBlanks t).head? = some '[')
    (hg : splitGroup? (skipBlanks t) = some (inner, u)) :
  readGroups t = (readList inner ++ (readGroups u).1, (readGroups u).2)
  := by
  rw [readGroups, if_pos hb]
  split
  · rename_i hg'
    rw [hg] at hg'
    obtain ⟨rfl, rfl⟩ := Prod.mk.inj (Option.some.inj hg')
    rfl
  · rename_i hg'
    rw [hg] at hg'
    cases hg'

/-- The settings of closed groups are those of the lists inside of them. -/
theorem readGroups_of_closedGroups {t rest : Text} {inners : List Text}
    (h : ClosedGroups t inners rest) (hr : (skipBlanks rest).head? ≠ some '[') :
  readGroups t = (inners.flatMap readList, rest)
  := by
  induction h with
  | nil => rw [readGroups, if_neg hr, List.flatMap_nil]
  | cons hb hg _ ih => rw [readGroups_cons hb hg, ih hr, List.flatMap_cons]

end Settings

/-! ## The places that the pass over the pairs reaches -/

/-- Whether the pass over the delimiters of a text reaches the offset `p`, outside of literals, and
`t` is the text from there. -/
def ReachedAt (text : Text) (p : Nat) (t : Text) : Prop :=
  ∃ before, lexemes text = before ++ lexemes t ∧ p = size (ofLexemes before)

namespace ReachedAt

variable {text t : Text} {p : Nat}

theorem toAt (h : ReachedAt text p t) :
  Checked.At text p t
  := by
  obtain ⟨before, hl, rfl⟩ := h
  refine ⟨ofLexemes before, ?_, rfl⟩
  rw [← ofLexemes_lexemes text, hl, ofLexemes_append, ofLexemes_lexemes]

/-- Characters that begin no literal are passed one by one. -/
theorem append {s : Text} (hs : ∀ c ∈ s, isQuote c = false) (h : ReachedAt text p (s ++ t)) :
  ReachedAt text (p + size s) t
  := by
  obtain ⟨before, hl, rfl⟩ := h
  rw [lexemes_append hs, ← List.append_assoc] at hl
  refine ⟨_, hl, ?_⟩
  rw [ofLexemes_append, size_append, ofLexemes_map_plain]

/-- The pass reaches what follows the blanks at a place. -/
theorem skipBlanks (h : ReachedAt text p t) :
  ∃ q, ReachedAt text q (Text.skipBlanks t)
  := by
  rw [← List.takeWhile_append_dropWhile (p := Unicode.isAsciiBlank) (l := t)] at h
  refine ⟨_, h.append ?_⟩
  apply isQuote_of_isBlank
  intro c hc
  exact Unicode.isBlank_of_isAsciiBlank (List.mem_takeWhile_imp hc)

/-- A bracket that the pass meets is recorded with the end that the direct matcher finds. -/
theorem splitGroup?_eq (h : ReachedAt text p ('[' :: t)) :
  (DelimiterPairs.ofText text).splitGroup? (size text) ('[' :: t) = splitGroup? ('[' :: t)
  := by
  obtain ⟨_, ht, hp⟩ := h.toAt
  obtain ⟨before, hl, rfl⟩ := h
  have hpair : DelimiterPairs.IsPair '[' ']' := .inr ⟨rfl, rfl⟩
  rw [lexemes_cons, Lexeme.first_plain rfl] at hl
  have hc := DelimiterPairs.closeOf?_lexeme hpair hl
  have hg : splitGroup? ('[' :: t) = closeGroup '[' ']' 0 t := rfl
  rw [closeOffset?] at hc
  rw [hg, closeGroup_eq rfl rfl]
  rw [hp] at hc
  cases hi : closeLexemes '[' ']' 0 (lexemes t) with
  | none =>
    rw [hi] at hc
    exact DelimiterPairs.splitGroup?_of_closeOf?_eq_none ht hc
  | some group =>
    obtain ⟨inner, rest⟩ := group
    rw [hi, (DelimiterPairs.size_delimiter hpair).1] at hc
    have hu : t = ofLexemes inner ++ ']' :: ofLexemes rest := by
      rw [← ofLexemes_lexemes t, eq_append_of_closeLexemes hi, ofLexemes_append]
      rfl
    rw [hu] at ht ⊢
    exact DelimiterPairs.splitGroup?_of_closeOf? ht hc

/-- The pass reaches what follows a group that it has met. -/
theorem behind_group {inner rest : Text} (h : ReachedAt text p ('[' :: t))
    (hg : splitGroup? ('[' :: t) = some (inner, rest)) :
  ∃ q, ReachedAt text q rest
  := by
  obtain ⟨before, hl, rfl⟩ := h
  rw [lexemes_cons, Lexeme.first_plain rfl] at hl
  have hc : closeGroup '[' ']' 0 t = some (inner, rest) := hg
  rw [closeGroup_eq rfl rfl] at hc
  obtain ⟨⟨i, r⟩, hi, hr⟩ := Option.map_eq_some_iff.mp hc
  obtain ⟨-, rfl⟩ := Prod.mk.inj hr
  have hcut : lexemes text = (before ++ .plain '[' :: (i ++ [.plain ']'])) ++ r := by
    rw [hl, eq_append_of_closeLexemes hi]
    simp
  refine ⟨_, before ++ .plain '[' :: (i ++ [.plain ']']), ?_, rfl⟩
  rw [lexemes_ofLexemes hcut]
  exact hcut

/-- The settings of closed groups are read from the pairs as well, and the pass reaches what follows
the groups. -/
theorem headerSettings?_eq {rest : Text} {inners : List Text} (h : ReachedAt text p t)
    (hc : ClosedGroups t inners rest) :
  (∃ q, ReachedAt text q rest)
    ∧ Segment.headerSettings? (.ofText text) (size text) t
      = (Segment.headerSettings? (.ofText text) (size text) rest).map
          fun (settings, behind) => (inners.flatMap Settings.readList ++ settings, behind)
  := by
  induction hc generalizing p with
  | nil =>
    refine ⟨⟨p, h⟩, ?_⟩
    exact Option.map_id'.symm
  | @cons t inner u rest inners hb hg _ ih =>
    obtain ⟨q, hq⟩ := h.skipBlanks
    obtain ⟨v, hv⟩ := List.head?_eq_some_iff.mp hb
    have hbracket := hq
    rw [hv] at hbracket hg
    obtain ⟨q', hq'⟩ := hbracket.behind_group hg
    obtain ⟨hr, ih⟩ := ih hq'
    refine ⟨hr, ?_⟩
    rw [Segment.headerSettings?_eq, if_pos hb, hv, hbracket.splitGroup?_eq, hg, Option.bind_some]
    dsimp only
    rw [ih, Option.map_map, List.flatMap_cons]
    congr 1
    funext s
    exact congrArg (·, s.2) (List.append_assoc _ _ _).symm

/-- All groups are closed, and both readers find the same settings. -/
theorem headerSettings?_eq_some (h : ReachedAt text p t) (hc : EveryGroupCloses t) :
  Segment.headerSettings? (.ofText text) (size text) t
    = some ((Settings.readGroups t).1, Text.skipBlanks (Settings.readGroups t).2)
  := by
  obtain ⟨inners, rest, hg, hr⟩ := hc
  rw [(h.headerSettings?_eq hg).2, Segment.headerSettings?_eq _ _ rest, if_neg hr,
    Settings.readGroups_of_closedGroups hg hr, Option.map_some]
  dsimp only
  rw [List.append_nil]

/-- There are no settings where a group is not closed. -/
theorem headerSettings?_eq_none (h : ReachedAt text p t) (hu : LeadsToUnclosedGroup t) :
  Segment.headerSettings? (.ofText text) (size text) t = none
  := by
  obtain ⟨inners, rest, hg, hb, hn⟩ := hu
  obtain ⟨⟨q, hq⟩, he⟩ := h.headerSettings?_eq hg
  obtain ⟨q', hq'⟩ := hq.skipBlanks
  obtain ⟨v, hv⟩ := List.head?_eq_some_iff.mp hb
  rw [hv] at hq' hn
  rw [he, Segment.headerSettings?_eq _ _ rest, if_pos hb, hv, hq'.splitGroup?_eq, hn]
  rfl

/-- The settings of a header are lost exactly when the groups lead to one that does not close. -/
theorem headerSettings?_eq_none_iff (h : ReachedAt text p t) :
  Segment.headerSettings? (.ofText text) (size text) t = none ↔ LeadsToUnclosedGroup t
  := by
  constructor
  · intro hn
    rcases everyGroupCloses_or t with hc | hu
    · rw [h.headerSettings?_eq_some hc] at hn
      cases hn
    · exact hu
  · exact h.headerSettings?_eq_none

end ReachedAt

/-! ## Offsets -/

/-- Whether `q` is the first offset from `p` on at which a text has no ASCII blank. -/
def IsFirstVisible (text : Text) (p q : Nat) : Prop :=
  p ≤ q ∧ (∀ i, p ≤ i → i < q → ∃ b, (bytes text)[i]? = some b ∧ Checked.isBlankByte b)
    ∧ ∀ b, (bytes text)[q]? = some b → Checked.isBlankByte b = false

theorem isFirstVisible_of_skipBlanks {text : Text} {p q : Nat}
    (h : Checked.skipBlanks text p = .ok q) :
  IsFirstVisible text p q
  := by
  rw [Checked.skipBlanks, Checked.skipWhile_eq, Except.ok.injEq] at h
  subst h
  have hs := List.takeWhile_append_dropWhile (p := Checked.isBlankByte)
    (l := (bytes text).drop p)
  have hrun : ∀ b ∈ ((bytes text).drop p).takeWhile Checked.isBlankByte, Checked.isBlankByte b :=
    fun b hb => List.mem_takeWhile_imp hb
  have hnext := List.head?_dropWhile_not Checked.isBlankByte ((bytes text).drop p)
  generalize ((bytes text).drop p).takeWhile Checked.isBlankByte = run at hs hrun
  generalize ((bytes text).drop p).dropWhile Checked.isBlankByte = rest at hs hnext
  refine ⟨Nat.le_add_right _ _, ?_, ?_⟩
  · intro i hi hlt
    obtain ⟨n, rfl⟩ := Nat.exists_eq_add_of_le hi
    have hn : n < run.length := by omega
    refine ⟨run[n], ?_, hrun _ (List.getElem_mem hn)⟩
    rw [← List.getElem?_drop, ← hs, List.getElem?_append_left hn, List.getElem?_eq_getElem hn]
  · intro b hb
    rw [← List.getElem?_drop, ← hs, List.getElem?_append_right (Nat.le_refl _), Nat.sub_self,
      ← List.head?_eq_getElem?] at hb
    rw [hb] at hnext
    simpa using hnext

/-- Wherever the pass over the pairs of a document stands outside of literals, the settings of a
header are those that are read from the text without the pairs, and what is left begins with the
first character behind the groups that is no blank.  There are no settings exactly where the reader
without the pairs comes to a group that is not closed. -/
theorem header_settings_agree_with_groups {text t : Text} {p : Nat} (h : ReachedAt text p t) :
  let pairs := DelimiterPairs.ofText text
  (EveryGroupCloses t →
      Segment.headerSettings? pairs (size text) t
        = some ((Settings.readGroups t).1, skipBlanks (Settings.readGroups t).2)
      ∧ ∃ e q, Checked.readGroups t = .ok ((Settings.readGroups t).1, e)
        ∧ Checked.headerSettings text pairs p = .ok (some ((Settings.readGroups t).1, q))
        ∧ IsFirstVisible text (p + e) q)
    ∧ (Segment.headerSettings? pairs (size text) t = none ↔ LeadsToUnclosedGroup t)
    ∧ (Checked.headerSettings text pairs p = .ok none ↔ LeadsToUnclosedGroup t)
  := by
  intro pairs
  have hiff := h.headerSettings?_eq_none_iff
  have hsome (hc : EveryGroupCloses t) :
      ∃ e q, Checked.readGroups t = .ok ((Settings.readGroups t).1, e)
        ∧ Checked.headerSettings text pairs p = .ok (some ((Settings.readGroups t).1, q))
        ∧ IsFirstVisible text (p + e) q := by
    obtain ⟨e, he, hread⟩ := Checked.readGroups_eq t
    obtain ⟨q, hq, hheader⟩ := h.toAt.headerSettings (h.headerSettings?_eq_some hc)
    obtain ⟨q', hq', hskip⟩ := (h.toAt.trans he).skipBlanks
    obtain rfl := hq.unique hq'
    exact ⟨e, q, hread, hheader, isFirstVisible_of_skipBlanks hskip⟩
  refine ⟨fun hc => ⟨h.headerSettings?_eq_some hc, hsome hc⟩, hiff, ?_⟩
  constructor
  · intro hn
    rcases everyGroupCloses_or t with hc | hu
    · obtain ⟨e, q, -, hheader, -⟩ := hsome hc
      rw [hn] at hheader
      cases hheader
    · exact hu
  · intro hu
    exact h.toAt.not_headerSettings (hiff.mpr hu)

/-- A bracket in a literal belongs to no group: it does not end the first group of the one text, and
leaves the second group of the other one open. -/
theorem header_settings_of_quoted_brackets :
  let s := "T [\x27a]\x27, n: 1]\n[pk] \x7b".toList
  let t := "[a] [b \x27c]\x27".toList
  (∃ e q, Checked.readGroups (s.drop 1)
        = .ok ([.flag "\x27a]\x27", .pair "n" (.bare "1"), .flag "pk"], e)
      ∧ Checked.headerSettings s (.ofText s) 1
        = .ok (some ([.flag "\x27a]\x27", .pair "n" (.bare "1"), .flag "pk"], q))
      ∧ IsFirstVisible s (1 + e) q)
    ∧ Checked.headerSettings t (.ofText t) 0 = .ok none
  := by
  intro s t
  have hs : ReachedAt s 1 (s.drop 1) := ⟨[.plain 'T'], by decide +kernel, rfl⟩
  have hclosed : EveryGroupCloses (s.drop 1) :=
    ⟨["\x27a]\x27, n: 1".toList, ['p', 'k']], [' ', '{'],
      .cons (u := "\n[pk] \x7b".toList) (by decide +kernel) (by decide +kernel)
        (.cons (by decide +kernel) (by decide +kernel) .nil), by decide +kernel⟩
  have hread : (Settings.readGroups (s.drop 1)).1
      = [.flag "\x27a]\x27", .pair "n" (.bare "1"), .flag "pk"] := by decide +kernel
  have ht : ReachedAt t 0 t := ⟨[], rfl, rfl⟩
  have hopen : LeadsToUnclosedGroup t :=
    ⟨[['a']], " [b \x27c]\x27".toList, .cons (by decide +kernel) (by decide +kernel) .nil,
      by decide +kernel, by decide +kernel⟩
  obtain ⟨-, hsettings⟩ := (header_settings_agree_with_groups hs).1 hclosed
  rw [hread] at hsettings
  exact ⟨hsettings, (header_settings_agree_with_groups ht).2.2.mpr hopen⟩

end DatabaseMarkup
