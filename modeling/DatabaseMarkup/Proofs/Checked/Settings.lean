import DatabaseMarkup.Proofs.Checked.Value
import DatabaseMarkup.Proofs.Text.Trim

/-!
# Checked bracket groups

The readers of settings by offsets.  `Checked.readGroups` yields the settings of the groups at the
start of a text together with the offset behind the last one.
-/

namespace DatabaseMarkup.Checked

open Text Octets

/-- The attribute that an item of a group stands for, and `none` for a blank item. -/
def readItem (item : Text) : Checked (Option Attribute) := do
  let item := trim item
  if item.isEmpty then
    return none
  else
    match ← findUnquoted item 0 (octet ':') with
    | some colon => do
      let before ← slice item 0 colon
      let key := trim before
      if isKey key then
        let after ← sliceFrom item (colon + 1)
        let (value, _) ← readValue (trimStart after)
        return some (.pair (normalName key) value)
      else
        return some (.flag (normalName item))
    | none => return some (.flag (normalName item))

/-- The settings between the brackets of one group. -/
def readList (t : Text) : Checked Settings := do
  let items ← splitTopLevel (octet ',') t
  let attributes ← items.mapM readItem
  return attributes.reduceOption

/-- The state of the reading of bracket groups: where to go on, where the last group ended, and
the settings so far. -/
structure GroupState where
  next : Nat
  finish : Nat
  settings : Settings

/-- A step of the reading of bracket groups. -/
def groupStep (t : Text) (s : GroupState) : Checked (Step GroupState (Settings × Nat)) := do
  let p ← skipBlanks t s.next
  if (bytes t)[p]? = some (octet '[') then
    match ← matchingClose t p with
    | some close => do
      let inner ← slice t (p + 1) close
      let more ← readList inner
      return .next ⟨close + 1, close + 1, s.settings ++ more⟩
    | none => do
      let inner ← sliceFrom t (p + 1)
      let more ← readList inner
      return .done (s.settings ++ more, size t)
  else
    return .done (s.settings, s.finish)

/-- The settings of all groups at the start of a text, and the offset behind the last group. -/
def readGroups (t : Text) : Checked (Settings × Nat) :=
  loop (fun s => (bytes t).length - s.next) (groupStep t) ⟨0, 0, []⟩

/-- An item of a group is read by offsets as `Settings.readItem?` reads it. -/
theorem readItem_eq (item : Text) :
  readItem item = .ok (Settings.readItem? item)
  := by
  rw [readItem, Settings.readItem?]
  dsimp only
  split
  · rfl
  · rw [(at_zero (trim item)).findUnquoted_eq (by decide), ok_bind]
    cases hc : cutAtUnquoted ':' (trim item) with
    | none => rfl
    | some p =>
      obtain ⟨before, after⟩ := p
      obtain ⟨tail, rfl, ht⟩ := eq_append_of_cutAtUnquoted hc
      have h : At (trim item) 0 (before ++ ':' :: tail) := by
        rw [← ht]
        exact at_zero _
      have htail : At (trim item) (0 + size before + 1) tail := h.append.cons_ascii (by decide)
      obtain ⟨n, -, hv⟩ := readValue_eq (trimStart tail)
      rw [Option.map_some]
      dsimp only
      rw [h.slice_eq, ok_bind, htail.sliceFrom_eq, ok_bind, hv, ok_bind, normalName, normalName,
        normalize_trim]
      split <;> rfl

/-- The inside of a group is read by offsets as `Settings.readList` reads it. -/
theorem readList_eq (t : Text) :
  readList t = .ok (Settings.readList t)
  := by
  rw [readList, splitTopLevel_eq (by decide) (by decide), ok_bind,
    mapM_eq fun item _ => readItem_eq item, ok_bind, Settings.readList]
  exact congrArg Except.ok List.filterMap_map

/-- The groups behind a place of a text are read one after another. -/
theorem loop_groupStep {text t : Text} {p : Nat} (h : At text p t) (settings : Settings) :
  Reads text (loop (fun s => (bytes text).length - s.next) (groupStep text) ⟨p, p, settings⟩)
    (settings ++ (Settings.readGroups t).1, (Settings.readGroups t).2)
  := by
  fun_induction Settings.readGroups t generalizing p settings with
  | case1 t hb inner rest hg more rest' hr ih =>
    obtain ⟨q, hq, hs⟩ := h.skipBlanks
    obtain ⟨hclose, hinner, hrest⟩ := hq.group hg
    obtain ⟨r, hr', hl⟩ := ih hrest (settings ++ Settings.readList inner)
    rw [hr] at hr' hl
    refine ⟨r, hr', ?_⟩
    rw [loop_next (r := ⟨q + 1 + size inner + 1, q + 1 + size inner + 1,
      settings ++ Settings.readList inner⟩), hl, List.append_assoc]
    · rw [groupStep, hs, ok_bind, if_pos ((hq.getElem?_eq_some_iff (by decide)).mpr hb), hclose,
        ok_bind]
      dsimp only
      rw [hinner, ok_bind, readList_eq]
      rfl
    · have := length_splitGroup hg
      have := length_skipBlanks_le t
      exact h.sub_lt_sub hrest (by omega)
  | case2 t hb hg =>
    obtain ⟨q, hq, hs⟩ := h.skipBlanks
    have hbyte := (hq.getElem?_eq_some_iff (by decide)).mpr hb
    refine ⟨_, at_size text, loop_done ?_⟩
    rw [groupStep, hs, ok_bind, if_pos hbyte, hq.not_group hg, ok_bind]
    obtain ⟨u, hu⟩ := List.head?_eq_some_iff.mp hb
    rw [hu] at hq ⊢
    dsimp only
    rw [(hq.cons_ascii (by decide)).sliceFrom_eq, ok_bind, readList_eq]
    rfl
  | case3 t hb =>
    obtain ⟨q, hq, hs⟩ := h.skipBlanks
    refine ⟨p, h, loop_done ?_⟩
    rw [groupStep, hs, ok_bind, if_neg (mt (hq.getElem?_eq_some_iff (by decide)).mp hb),
      List.append_nil]
    rfl

/-- Groups in a row are read by offsets with the same settings, and to the same end. -/
theorem readGroups_eq (t : Text) :
  Reads t (readGroups t) (Settings.readGroups t)
  := loop_groupStep (at_zero t) []

end DatabaseMarkup.Checked
