import DatabaseMarkup.Proofs.Block.Segment
import DatabaseMarkup.Proofs.Checked.Settings

/-!
# Checked segments

The scan for the blocks of a document by offsets.  It looks up where a group ends among the pairs
that were found before, far from the place where the group is cut out.
-/

namespace DatabaseMarkup.Checked

open Text Octets

/-- The header at the start of a text and the number of bytes that it takes.  The header of a
reference block takes the opening brace with it. -/
def matchHeader (t : Text) : Option (Header × Nat) :=
  match Header.read? t with
  | some (header, rest) =>
    let behind := if header.kind = .refBlock then rest.drop 1 else rest
    some (header, size t - size behind)
  | none => none

section

variable (t : Text) (pairs : DelimiterPairs)

/-- A step of the reading of the bracket groups behind a header.  There is no result when a group
is never closed. -/
def headerStep : Nat × Settings → Checked (Step (Nat × Settings) (Option (Settings × Nat)))
  | (p, settings) => do
    let p ← skipBlanks t p
    if (bytes t)[p]? = some (octet '[') then
      match pairs.closeOf? p with
      | some close => do
        let inner ← slice t (p + 1) close
        let more ← readList inner
        return .next (close + 1, settings ++ more)
      | none => return .done none
    else
      return .done (some (settings, p))

/-- The settings in the bracket groups behind a header, and the offset behind them. -/
def headerSettings (p : Nat) : Checked (Option (Settings × Nat)) :=
  loop (fun (p, _) => (bytes t).length - p) (headerStep t pairs) (p, [])

/-- The text that is skipped at an offset, and the offset behind it. -/
def skipUnknown (p : Nat) : Checked (SegmentContent × Nat) := do
  let finish ← lineEnd t p
  let line ← slice t p finish
  let brace ← findUnquoted line 0 (octet '{')
  let close := brace.bind fun open' => pairs.closeOf? (p + open')
  let next := match close with
    | some close => close + 1
    | none => finish
  return (.skipped (.unknownDeclaration line), next)

/-- The block whose settings and body begin at an offset, or what is skipped in its place, and the
offset behind it.  The segment begins at `start`. -/
def readBlock (start : Nat) (header : Header) (settings : Settings) (p : Nat) :
    Checked (SegmentContent × Nat) :=
  if (bytes t)[p]? = some (octet '{') then
    match pairs.closeOf? p with
    | some close => do
      let body ← slice t (p + 1) close
      return (.block ⟨header, settings, body, p + 1⟩, close + 1)
    | none => return (.skipped (.unterminatedBlock header.kind), p + 1)
  else
    skipUnknown t pairs start

/-- The segment at an offset and the offset behind it. -/
def readSegment (start : Nat) : Checked (SegmentContent × Nat) := do
  let rest ← sliceFrom t start
  match matchHeader rest with
  | none => skipUnknown t pairs start
  | some (header, length) =>
    let p := start + length
    if header.kind = .refShort then
      let finish ← lineEnd t p
      let body ← slice t p finish
      return (.block ⟨header, [], body, p⟩, finish)
    else if header.kind = .refBlock then
      let p ← subtract p 1
      readBlock t pairs start header [] p
    else
      match ← headerSettings t pairs p with
      | some (settings, p) => readBlock t pairs start header settings p
      | none => skipUnknown t pairs start

/-- The segment at an offset, with this offset, and the offset behind it. -/
def segmentEntry (p : Nat) : Checked (List (Nat × SegmentContent) × Nat) := do
  let (content, next) ← readSegment t pairs p
  return ([(p, content)], next)

/-- The segments of a document that are not blank, with their offsets. -/
def segments : Checked (List (Nat × SegmentContent)) :=
  gather (size t) (entryStep t (segmentEntry t pairs)) 0

end

section

variable {text t : Text} {p : Nat}

/-- A recorded group is cut out of a text between its delimiters. -/
theorem At.recorded {inner rest : Text} (h : At text p t)
    (hg : (DelimiterPairs.ofText text).splitGroup? (size text) t = some (inner, rest)) :
  (DelimiterPairs.ofText text).closeOf? p = some (p + 1 + size inner)
    ∧ slice text (p + 1) (p + 1 + size inner) = .ok inner
    ∧ At text (p + 1 + size inner + 1) rest
  := by
  obtain ⟨before, ht, rfl⟩ := h
  obtain ⟨opener, closer, hp, rfl, hc⟩ := DelimiterPairs.splitGroup?_eq_some ht hg
  have h : At text (size before) (opener :: (inner ++ closer :: rest)) := ⟨before, ht, rfl⟩
  obtain ⟨ho, hc'⟩ := DelimiterPairs.size_delimiter hp
  rw [size_cons, size_nil, Nat.add_zero] at ho hc'
  have hi := h.cons
  rw [ho] at hi
  have hr := hi.append.cons
  rw [hc'] at hr
  exact ⟨hc, hi.slice_eq, hr⟩

/-- Where no group stands, no pair is recorded. -/
theorem At.not_recorded {c : Char} (h : At text p (c :: t))
    (hg : (DelimiterPairs.ofText text).splitGroup? (size text) (c :: t) = none) :
  (DelimiterPairs.ofText text).closeOf? p = none
  := by
  obtain ⟨before, ht, rfl⟩ := h
  exact DelimiterPairs.splitGroup?_eq_none ht hg

/-- The bracket groups behind a header are read up to the place behind them, unless one of them is
never closed. -/
theorem loop_headerStep (h : At text p t) (settings : Settings) :
  ∃ r, loop (fun (p, _) => (bytes text).length - p)
      (headerStep text (DelimiterPairs.ofText text)) (p, settings) = .ok r
    ∧ match Segment.headerSettings? (DelimiterPairs.ofText text) (size text) t with
      | some (more, rest) => ∃ q, At text q rest ∧ r = some (settings ++ more, q)
      | none => r = none
  := by
  fun_induction Segment.headerSettings? (DelimiterPairs.ofText text) (size text) t
    generalizing p settings with
  | case1 t hb inner rest hg ih =>
    obtain ⟨q, hq, hs⟩ := h.skipBlanks
    obtain ⟨hclose, hinner, hrest⟩ := hq.recorded hg
    obtain ⟨r, hl, hr⟩ := ih hrest (settings ++ Settings.readList inner)
    refine ⟨r, ?_, ?_⟩
    · rw [loop_next (r := (q + 1 + size inner + 1, settings ++ Settings.readList inner)), hl]
      · rw [headerStep, hs, ok_bind, if_pos ((hq.getElem?_eq_some_iff (by decide)).mpr hb), hclose]
        dsimp only
        rw [hinner, ok_bind, readList_eq]
        rfl
      · have := DelimiterPairs.length_splitGroup hg
        have := length_skipBlanks_le t
        exact h.sub_lt_sub hrest (by omega)
    · cases hh : Segment.headerSettings? (DelimiterPairs.ofText text) (size text) rest with
      | none =>
        rw [hh] at hr
        exact hr
      | some u =>
        rw [hh] at hr
        obtain ⟨q', hq', hr⟩ := hr
        refine ⟨q', hq', ?_⟩
        rw [hr, List.append_assoc]
  | case2 t hb hg =>
    obtain ⟨q, hq, hs⟩ := h.skipBlanks
    refine ⟨none, loop_done ?_, rfl⟩
    have hbyte := (hq.getElem?_eq_some_iff (by decide)).mpr hb
    obtain ⟨u, hu⟩ := List.head?_eq_some_iff.mp hb
    rw [hu] at hq hg
    rw [headerStep, hs, ok_bind, if_pos hbyte, hq.not_recorded hg]
    rfl
  | case3 t hb =>
    obtain ⟨q, hq, hs⟩ := h.skipBlanks
    refine ⟨_, loop_done (b := some (settings, q)) ?_, q, hq, by rw [List.append_nil]⟩
    rw [headerStep, hs, ok_bind, if_neg (mt (hq.getElem?_eq_some_iff (by decide)).mp hb)]
    rfl

/-- The settings of a header are read by offsets with the same settings, and to the same end. -/
theorem At.headerSettings {settings : Settings} {rest : Text} (h : At text p t)
    (hs : Segment.headerSettings? (DelimiterPairs.ofText text) (size text) t
      = some (settings, rest)) :
  ∃ q, At text q rest
    ∧ headerSettings text (DelimiterPairs.ofText text) p = .ok (some (settings, q))
  := by
  obtain ⟨r, hl, hr⟩ := loop_headerStep h []
  rw [hs] at hr
  obtain ⟨q, hq, rfl⟩ := hr
  exact ⟨q, hq, hl⟩

/-- Where a header has an open group in its settings, none are read by offsets either. -/
theorem At.not_headerSettings (h : At text p t)
    (hs : Segment.headerSettings? (DelimiterPairs.ofText text) (size text) t = none) :
  Checked.headerSettings text (DelimiterPairs.ofText text) p = .ok none
  := by
  obtain ⟨r, hl, hr⟩ := loop_headerStep h []
  rw [hs] at hr
  subst hr
  exact hl

/-- The text that is skipped ends at a place. -/
theorem At.skipUnknown (h : At text p t) :
  Reads text (skipUnknown text (DelimiterPairs.ofText text) p)
    (Segment.unknown (DelimiterPairs.ofText text) (size text) t)
  := by
  rw [Segment.unknown, Segment.afterSkipped, Checked.skipUnknown, h.lineEnd_eq, ok_bind,
    h.slice_firstLine, ok_bind, (at_zero _).findUnquoted_eq (by decide), ok_bind]
  cases hc : cutAtUnquoted '{' (Text.firstLine t) with
  | none => exact ⟨_, h.firstLine, rfl⟩
  | some cut =>
    obtain ⟨before, after⟩ := cut
    obtain ⟨tail, rfl, ht⟩ := eq_append_of_cutAtUnquoted hc
    have hline : t = before ++ '{' :: (tail ++ fromLineEnd t) := by
      rw [← List.cons_append, ← List.append_assoc, ← ht, firstLine_append_fromLineEnd]
    have hb : At text p (before ++ '{' :: (tail ++ fromLineEnd t)) := by
      rwa [← hline]
    have hd : t.drop before.length = '{' :: (tail ++ fromLineEnd t) := by
      conv_lhs => rw [hline, List.drop_left]
    rw [Option.map_some, Option.bind_some]
    dsimp only
    rw [hd, Nat.zero_add]
    have hbrace := hb.append
    cases hg : (DelimiterPairs.ofText text).splitGroup? (size text)
        ('{' :: (tail ++ fromLineEnd t)) with
    | none =>
      rw [hbrace.not_recorded hg]
      exact ⟨_, h.firstLine, rfl⟩
    | some group =>
      obtain ⟨hclose, -, hrest⟩ := hbrace.recorded hg
      rw [hclose]
      exact ⟨_, hrest, rfl⟩

/-- The body of a block is cut out of a text, or what stands in its place is skipped. -/
theorem At.readBlock {start : Nat} {u : Text} (hstart : At text start u) (h : At text p t)
    (header : Header) (settings : Settings) :
  Reads text (Checked.readBlock text (DelimiterPairs.ofText text) start header settings p)
    (if t.head? = some '{' then
      match (DelimiterPairs.ofText text).splitGroup? (size text) t with
      | some (body, after) =>
        (.block ⟨header, settings, body, startOf (size text) t + 1⟩, after)
      | none => (.skipped (.unterminatedBlock header.kind), t.drop 1)
    else
      Segment.unknown (DelimiterPairs.ofText text) (size text) u)
  := by
  rw [Checked.readBlock]
  split
  · rename_i hb
    have hb := (h.getElem?_eq_some_iff (by decide)).mp hb
    obtain ⟨v, rfl⟩ := List.head?_eq_some_iff.mp hb
    rw [if_pos hb, h.startOf_eq]
    cases hg : (DelimiterPairs.ofText text).splitGroup? (size text) ('{' :: v) with
    | none =>
      rw [h.not_recorded hg]
      exact ⟨p + 1, h.cons_ascii (by decide), rfl⟩
    | some group =>
      obtain ⟨hclose, hbody, hrest⟩ := h.recorded hg
      rw [hclose]
      dsimp only
      rw [hbody]
      exact ⟨_, hrest, rfl⟩
  · rename_i hb
    rw [if_neg (mt (h.getElem?_eq_some_iff (by decide)).mpr hb)]
    exact hstart.skipUnknown

/-- The length of a header is that of the text in front of what it leaves. -/
theorem At.matchHeader {rest : Text} {header : Header} (h : At text p t)
    (hr : Header.read? t = some (header, rest)) :
  ∃ n, Checked.matchHeader t = some (header, n)
    ∧ At text (p + n) (if header.kind = .refBlock then rest.drop 1 else rest)
  := by
  refine ⟨_, by rw [Checked.matchHeader, hr], ?_⟩
  apply h.suffix
  obtain ⟨names, ht, -⟩ := Header.exists_append hr
  split
  · exact (List.drop_suffix _ _).trans ⟨names, ht.symm⟩
  · exact ⟨names, ht.symm⟩

theorem headerSettings?_brace (pairs : DelimiterPairs) (finish : Nat) (t : Text) :
  Segment.headerSettings? pairs finish ('{' :: t) = some ([], '{' :: t)
  := by
  have hs : Text.skipBlanks ('{' :: t) = '{' :: t := rfl
  rw [Segment.headerSettings?, if_neg, hs]
  rw [hs, List.head?_cons]
  decide

/-- A segment is cut out of a text, and the next one begins at a place. -/
theorem At.readSegment (h : At text p t) :
  Reads text (readSegment text (DelimiterPairs.ofText text) p)
    (Segment.splitFirst (DelimiterPairs.ofText text) (size text) t)
  := by
  rw [Checked.readSegment, h.sliceFrom_eq, ok_bind, Segment.splitFirst]
  cases hr : Header.read? t with
  | none =>
    have hm : Checked.matchHeader t = none := by rw [Checked.matchHeader, hr]
    rw [hm]
    exact h.skipUnknown
  | some r =>
    obtain ⟨header, rest⟩ := r
    obtain ⟨n, hm, hn⟩ := h.matchHeader hr
    rw [hm]
    dsimp only
    split
    · rename_i hk
      rw [hk, if_neg (by decide)] at hn
      refine ⟨_, hn.firstLine, ?_⟩
      rw [hn.lineEnd_eq, ok_bind, hn.slice_firstLine, hn.startOf_eq]
      rfl
    · split
      · rename_i hk
        obtain ⟨u, rfl⟩ := Header.exists_brace hr hk
        rw [if_pos hk] at hn
        obtain ⟨names, ht, -⟩ := Header.exists_append hr
        rw [ht] at h
        have hb := h.append
        have hp : p + n = p + size names + 1 := hn.unique (hb.cons_ascii (by decide))
        rw [hp, subtract_succ, headerSettings?_brace, ok_bind, ht]
        exact h.readBlock hb header []
      · rename_i hk
        rw [if_neg hk] at hn
        cases hs : Segment.headerSettings? (DelimiterPairs.ofText text) (size text) rest with
        | none =>
          rw [hn.not_headerSettings hs]
          exact h.skipUnknown
        | some r =>
          obtain ⟨q, hq, hs⟩ := hn.headerSettings hs
          rw [hs]
          exact h.readBlock hq header r.1

end

/-! ## All segments -/

/-- The offset and the content of a segment that is not blank. -/
def visible? (s : Segment) : Option (Nat × SegmentContent) :=
  if s.content = .blank then none else some (s.offset, s.content)

/-- The segments of a text are those from its first visible character on. -/
theorem visible_split (pairs : DelimiterPairs) (start finish : Nat) (t : Text) :
  (Segment.split pairs start finish t).filterMap visible?
    = (Segment.split pairs (start + size (t.takeWhile Unicode.isAsciiBlank)) finish
        (Text.skipBlanks t)).filterMap visible?
  := Segment.filterMap_split (fun _ _ => rfl) pairs start finish t

/-- Something stands at the start of every text that is split. -/
theorem splitFirst_ne_blank (pairs : DelimiterPairs) (finish : Nat) (t : Text) :
  (Segment.splitFirst pairs finish t).1 ≠ .blank
  := by
  rw [Segment.splitFirst]
  intro h
  split at h
  · cases h
  · split at h
    · cases h
    · split at h
      · cases h
      · split at h
        · split at h <;> cases h
        · cases h

/-- The scan finds the segments from a place on. -/
theorem gather_segmentEntry {text t : Text} {p : Nat} (h : At text p t) :
  gather (size text) (entryStep text (segmentEntry text (DelimiterPairs.ofText text))) p
    = .ok ((Segment.split (DelimiterPairs.ofText text) p (size text) t).filterMap visible?)
  := by
  obtain ⟨q, hq, -⟩ := h.skipBlanks
  have hpq : q = p + size (t.takeWhile Unicode.isAsciiBlank) := hq.unique (h.run _).2
  rw [visible_split, ← hpq]
  cases hb : Text.skipBlanks t with
  | nil =>
    rw [gather_entryStep_nil h hb, Segment.split]
    rfl
  | cons c u =>
    rw [hb] at hq
    obtain ⟨r, hr, hseg⟩ := hq.readSegment
    have hl := Segment.length_splitFirst_lt (DelimiterPairs.ofText text) (size text) c u
      (ne_newline_of_skipBlanks hb)
    have hlt := length_lt_of_skipBlanks hb hl
    have hv : visible? ⟨q, (splitAtByte (r - q) (c :: u)).1,
        (Segment.splitFirst (DelimiterPairs.ofText text) (size text) (c :: u)).1⟩ = some _ :=
      if_neg (splitFirst_ne_blank _ _ _)
    rw [Segment.split, if_neg (ne_true_of_eq_false (isAsciiBlank_head_skipBlanks hb))]
    dsimp only
    rw [hr.startOf_eq, List.filterMap_cons, hv]
    have hread : ∀ q', At text q' (c :: u) →
        Reads text (segmentEntry text (DelimiterPairs.ofText text) q')
          ([(q, (Segment.splitFirst (DelimiterPairs.ofText text) (size text) (c :: u)).1)],
            (Segment.splitFirst (DelimiterPairs.ofText text) (size text) (c :: u)).2) := by
      intro q' hq'
      obtain rfl := hq'.unique hq
      exact ⟨r, hr, by rw [segmentEntry, hseg]; rfl⟩
    apply gather_entryStep_cons h hb hl hread
    intro r' hr'
    obtain rfl := hr'.unique hr
    exact gather_segmentEntry hr'
termination_by t.length

/-- The scan finds all segments of a text. -/
theorem segments_eq (t : Text) :
  segments t (DelimiterPairs.ofText t) = .ok ((Segment.ofText t).filterMap visible?)
  := gather_segmentEntry (at_zero t)

end DatabaseMarkup.Checked
