import DatabaseMarkup.Proofs.Relationship.Print

/-!
# Targets of relationships

A `TargetSource` is a column with its table, as it stands behind the symbol of a relationship.  It
is written as a dotted path, in an explicit relationship or in the value of the setting `ref`, or
with its column in parentheses.  The three forms cut the names out by rules of their own:
`target_forms_agree` states for any names that are accepted when the forms are read alike.
-/

namespace DatabaseMarkup

open Unicode Text

/-! ## Parts and names -/

/-- The characters of the names in a list come from the list. -/
theorem Text.mem_of_mem_listNames {t name : Text} (h : name ∈ listNames t) {c : Char}
    (hc : c ∈ name) (hcomma : c ≠ ',') :
  c ∈ t
  := by
  obtain ⟨part, hpart, rfl⟩ := List.mem_map.mp (List.mem_of_mem_filter h)
  have ht := intercalate_append_separator ',' (splitTopLevel_ne_nil ',' t)
  rw [intercalate_splitTopLevel] at ht
  have hm : c ∈ t ++ [','] := by
    rw [ht]
    apply List.mem_flatMap_of_mem hpart
    apply List.mem_append_left _ (unquote_subset part hc)
  rw [List.mem_append, List.mem_singleton] at hm
  exact hm.resolve_right hcomma

namespace AcceptedName

variable (n : AcceptedName)

theorem length_content_le :
  n.content.length ≤ n.text.length
  := by
  rcases n.text_eq with ⟨q, _, _, _, ht, _⟩ | ⟨_, _, ht, _⟩
  · rw [ht, List.length_cons, List.length_append]
    omega
  · rw [ht]

/-- A name with a dot before it is more than its content. -/
theorem unquote_ne_of_dot (s : Text) :
  unquote (s ++ '.' :: n.text) ≠ n.content
  := by
  intro h
  have hdot : Trimmed ('.' :: n.text) := by
    apply (trimmed_of_forall (List.forall_mem_singleton.mpr rfl) : Trimmed ['.']).append
      n.trimmed_text (List.cons_ne_nil _ _) n.text_ne_nil []
  have htrim := trim_append_trimmed s hdot (List.cons_ne_nil _ _)
  have hlength := congrArg List.length htrim
  rw [List.length_append, List.length_cons] at hlength
  rcases unquote_eq_or (s ++ '.' :: n.text) with hu | ⟨q, hq, hu⟩
  · have hle := n.length_content_le
    rw [← hu, h] at hlength
    omega
  · rw [h] at hu
    rcases n.text_eq with ⟨p, _, _, _, ht, _⟩ | ⟨_, hw, ht, _⟩
    · rw [hu, ht] at hlength
      simp only [List.length_cons, List.length_append, List.length_nil] at hlength
      omega
    · -- a name without quotes ends with a word character
      have hlast := congrArg List.getLast? (htrim.symm.trans hu)
      rw [← List.singleton_append, ← List.append_assoc,
        List.getLast?_append_of_ne_nil _ n.text_ne_nil,
        ← List.cons_append, List.getLast?_concat, ht] at hlast
      have hword := isQuote_of_isWord (hw q (List.mem_of_getLast? hlast))
      rw [hq] at hword
      cases hword

/-- What is left of a name behind a dot in it is not its content. -/
theorem unquote_ne_of_suffix {s p : Text} (h : n.text = s ++ '.' :: p) :
  unquote p ≠ n.content
  := by
  intro hu
  rcases n.text_eq with ⟨q, _, hq, hc, ht, _⟩ | ⟨_, hw, ht, _⟩
  · cases s with
    | nil =>
      rw [ht, List.nil_append, List.cons.injEq] at h
      rw [h.1] at hq
      cases hq
    | cons d s =>
      rw [ht, List.cons_append, List.cons.injEq] at h
      obtain ⟨rfl, h⟩ := h
      rcases List.eq_nil_or_concat p with rfl | ⟨v, e, rfl⟩
      · exact n.content_ne_nil hu.symm
      · rw [List.concat_eq_append] at h hu
        rw [← List.cons_append, ← List.append_assoc] at h
        obtain ⟨hv, he⟩ := List.append_inj' h rfl
        obtain rfl := List.singleton_inj.mp he
        have htrim := trim_append_trimmed v
          (trimmed_of_forall (List.forall_mem_singleton.mpr (isBlank_quote hq)))
          (List.cons_ne_nil _ _)
        rcases unquote_eq_or (v ++ [q]) with hp | ⟨q', _, hp⟩
        · apply hc
          rw [← hu, hp, htrim]
          apply List.mem_append_right _ List.mem_cons_self
        · -- the part is shorter than the content with two quotes around it
          have hlength := congrArg List.length (htrim.symm.trans hp)
          have hle := List.length_dropWhile_le isBlank v
          rw [hu, hv] at hlength
          simp only [List.length_append, List.length_cons, List.length_nil, trimStart] at hlength
          omega
  · have hdot : '.' ∈ n.content := by
      rw [← ht, h]
      apply List.mem_append_right _ List.mem_cons_self
    cases hw _ hdot

/-- The last part of a path is the name at its end if the two have the same content. -/
theorem eq_text_of_unquote {s s' p : Text} (h : s ++ p = s' ++ n.text)
    (hs : ∀ c ∈ s.getLast?, c = '.') (hs' : ∀ c ∈ s'.getLast?, c = '.')
    (hu : unquote p = n.content) :
  s = s' ∧ p = n.text
  := by
  rcases List.append_eq_append_iff.mp h with ⟨u, hu', hp⟩ | ⟨u, hu', hp⟩
  · rcases List.eq_nil_or_concat u with rfl | ⟨v, d, rfl⟩
    · rw [List.append_nil] at hu'
      exact ⟨hu'.symm, hp⟩
    · rw [List.concat_eq_append] at hu' hp
      rw [hu', ← List.append_assoc] at hs'
      obtain rfl := hs' d List.getLast?_concat
      rw [List.append_assoc, List.singleton_append] at hp
      rw [hp] at hu
      exact absurd hu (n.unquote_ne_of_dot v)
  · rcases List.eq_nil_or_concat u with rfl | ⟨v, d, rfl⟩
    · rw [List.append_nil] at hu'
      exact ⟨hu', hp.symm⟩
    · rw [List.concat_eq_append] at hu' hp
      rw [hu', ← List.append_assoc] at hs
      obtain rfl := hs d List.getLast?_concat
      rw [List.append_assoc, List.singleton_append] at hp
      exact absurd hu (n.unquote_ne_of_suffix hp)

/-- A qualifier ends with a dot. -/
theorem getLast?_parts {parts : List Text} :
  ∀ c ∈ (parts.flatMap fun part => part ++ ['.']).getLast?, c = '.'
  := by
  rcases List.eq_nil_or_concat parts with rfl | ⟨parts, part, rfl⟩
  · rintro c ⟨⟩
  · rw [List.concat_eq_append, List.flatMap_append, List.flatMap_singleton, ← List.append_assoc,
      List.getLast?_concat]
    rintro c ⟨⟩
    rfl

/-- The parts of a path are the names in it if the contents at its end are those of the names. -/
theorem eq_map_text_of_suffix {ns : List AcceptedName} {parts : List Text}
    (h : (parts.flatMap fun part => part ++ ['.']) = dotted ns)
    (hu : ns.map content <:+ parts.map unquote) :
  parts = ns.map text
  := by
  induction ns using List.reverseRecOn generalizing parts with
  | nil =>
    cases parts with
    | nil => rfl
    | cons part parts =>
      rw [List.flatMap_cons, dotted, List.flatMap_nil, List.append_assoc] at h
      exact absurd h (List.append_ne_nil_of_right_ne_nil _ (List.cons_ne_nil _ _))
  | append_singleton ns n ih =>
    rcases List.eq_nil_or_concat parts with rfl | ⟨parts, part, rfl⟩
    · rw [List.map_append, List.map_nil, List.suffix_nil] at hu
      exact absurd hu (List.append_ne_nil_of_right_ne_nil _ (List.cons_ne_nil _ _))
    · rw [List.concat_eq_append] at h hu ⊢
      rw [List.map_append, List.map_append, List.map_singleton, List.map_singleton] at hu
      obtain ⟨hpart, hparts⟩ : unquote part = n.content ∧ ns.map content <:+ parts.map unquote := by
        obtain ⟨more, hmore⟩ := hu
        rw [← List.append_assoc] at hmore
        obtain ⟨hmore, hpart⟩ := List.append_inj' hmore rfl
        exact ⟨(List.singleton_inj.mp hpart).symm, more, hmore⟩
      rw [dotted, List.flatMap_append, List.flatMap_append, List.flatMap_singleton,
        List.flatMap_singleton, ← List.append_assoc, ← List.append_assoc] at h
      have hdotted : dotted ns = (ns.map text).flatMap fun part => part ++ ['.'] := by
        rw [List.flatMap_map]
        rfl
      have hlast : ∀ c ∈ (dotted ns).getLast?, c = '.' := by
        rw [hdotted]
        apply getLast?_parts
      obtain ⟨hbefore, rfl⟩ :=
        n.eq_text_of_unquote (List.append_inj' h rfl).1 getLast?_parts hlast hpart
      rw [ih hbefore hparts, List.map_append, List.map_singleton]

/-- What is before a character that belongs to no word is the opening quote of the name and a part
of its content. -/
theorem exists_quote_of_eq_append {c : Char} (hc : isQuote c = false) (hw : isWord c = false)
    {part u : Text} (h : n.text = part ++ c :: u) :
  ∃ q inner, part = q :: inner ∧ isQuote q ∧ q ∉ inner ∧ q ∉ n.content
  := by
  rcases n.text_eq with ⟨q, _, hq, hn, ht, _⟩ | ⟨_, hword, ht, _⟩
  · rw [ht] at h
    cases part with
    | nil =>
      rw [List.nil_append, List.cons.injEq] at h
      rw [h.1, hc] at hq
      cases hq
    | cons d inner =>
      rw [List.cons_append, List.cons.injEq] at h
      obtain ⟨rfl, h⟩ := h
      have hstart : inner <+: n.content := by
        apply List.prefix_of_prefix_length_le ⟨_, h.symm⟩ (List.prefix_append _ _)
        have hlength := congrArg List.length h
        simp only [List.length_append, List.length_cons, List.length_nil] at hlength
        omega
      exact ⟨q, inner, rfl, hq, fun hm => hn (hstart.subset hm), hn⟩
  · have hm : c ∈ n.content := by
      rw [← ht, h]
      apply List.mem_append_right _ List.mem_cons_self
    have hc := hword c hm
    rw [hw] at hc
    cases hc

/-- A name is the only one in a list if and only if the list is not cut at a comma in the name. -/
theorem listNames_eq_singleton_iff :
  listNames n.text = [n.content]
    ↔ splitTopLevel ',' n.text = [n.text]
  := by
  constructor
  · intro h
    have htext := intercalate_splitTopLevel ',' n.text
    have hne := splitTopLevel_ne_nil ',' n.text
    rw [listNames] at h
    generalize splitTopLevel ',' n.text = parts at h htext hne
    rcases parts with _ | ⟨part, _ | ⟨next, parts⟩⟩
    · exact absurd rfl hne
    · rw [← htext, List.intercalate_singleton]
    · -- the first part has the opening quote only, and so keeps it
      rw [List.intercalate_cons_cons, List.append_assoc, List.singleton_append] at htext
      obtain ⟨q, inner, rfl, hq, hinner, hcontent⟩ :=
        n.exists_quote_of_eq_append rfl rfl htext.symm
      rw [List.map_cons, unquote_cons_of_notMem hq hinner, List.filter_cons_of_pos (by rfl),
        List.cons.injEq] at h
      apply absurd _ hcontent
      rw [← h.1]
      apply List.mem_cons_self
  · intro h
    have hne : n.content.isEmpty = false := by
      rw [← Bool.not_eq_true, List.isEmpty_iff]
      exact n.content_ne_nil
    rw [listNames, h, List.map_singleton, n.unquote_eq, List.filter_singleton, hne]
    rfl

/-- Names in closed quotes are cut at the separators between them only. -/
theorem splitTopLevel_intercalate {separator : Char} (hs : isQuote separator = false)
    (hd : isDelimiter (.plain separator) = false) (hw : isWord separator = false)
    {ns : List AcceptedName} (hn : ns ≠ []) (hc : ∀ n ∈ ns, n.IsClosed) :
  splitTopLevel separator ([separator].intercalate (ns.map text)) = ns.map text
  := by
  obtain ⟨n, ns, rfl⟩ := List.exists_cons_of_ne_nil hn
  have hl : ∀ m ∈ n :: ns, Lexes m.text m.lexemes := fun m hm => m.lexes_text (hc m hm)
  have hplain : ∀ m ∈ n :: ns, ∀ l ∈ m.lexemes, l ≠ .plain separator ∧ isDelimiter l = false :=
    fun m _ => m.not_isDelimiter_lexemes hw
  rw [splitTopLevel, (lexes_intercalate hs (List.forall_mem_nil _) hl).lexemes_eq,
    splitLexemes_intercalate hd (List.forall_mem_nil _) hl hplain]
  rfl

end AcceptedName

/-! ## Symbols and settings -/

/-- The symbol at the start of a text is read whole, as no kind but the one from many to many has a
symbol that begins with another. -/
theorem RelationKind.split?_append (kind : RelationKind) {t : Text} (ht : t.head? ≠ some '>') :
  split? (kind.symbol.toList ++ t) = some (kind, t)
  := by
  cases kind with
  | oneToMany =>
    have hchar : splitChar? '>' t = none := by
      cases t with
      | nil => rfl
      | cons c t =>
        rw [splitChar?, if_neg]
        rintro rfl
        apply ht rfl
    have hsymbol : oneToMany.symbol.toList ++ t = '<' :: t := rfl
    rw [hsymbol, split?, if_pos rfl, hchar]
  | manyToOne => rfl
  | oneToOne => rfl
  | manyToMany => rfl

theorem RelationKind.of_mem_head?_symbol {kind : RelationKind} {t : Text} {c : Char}
    (h : c ∈ (kind.symbol.toList ++ t).head?) :
  c ∈ ['<', '>', '-']
  := by
  cases kind <;> cases h <;> decide

theorem RelationKind.isBlank_symbol :
  ∀ c ∈ ['<', '>', '-'], isBlank c = false
  := forall_mem_of_all (by decide)

theorem Settings.readGroups_trimStart_nil :
  readGroups (trimStart []) = ([], [])
  := readGroups_eq_nil (by rintro ⟨⟩)

/-! ## Targets -/

/-- A column with its table, which a schema may qualify. -/
structure TargetSource where
  schema? : Option AcceptedName
  table : AcceptedName
  column : AcceptedName

/-- The relationship between two endpoints, without a name. -/
def Relationship.between (left : Endpoint) (kind : RelationKind) (right : Endpoint)
    (settings : Settings) : Relationship where
  name := none
  leftSchema := left.schema
  leftTable := left.table
  leftColumns := left.columns
  rightSchema := right.schema
  rightTable := right.table
  rightColumns := right.columns
  kind
  settings

/-- The other side of a relationship that a column declares, from the parts of a path. -/
def InlineRef.ofPath? (kind : RelationKind) (parts : List Text) : Option InlineRef :=
  match parts.reverse with
  | column :: table :: schema =>
    some {
      kind
      schema := schema.head?.map String.ofList
      table := String.ofList table
      column := String.ofList column }
  | _ => none

namespace TargetSource

/-- The names of a target, as they are written with dots between them. -/
def names (t : TargetSource) : List AcceptedName :=
  t.schema?.toList ++ [t.table, t.column]

/-- What is before the column. -/
def qualifier (t : TargetSource) : Text :=
  AcceptedName.dotted (t.schema?.toList ++ [t.table])

/-- A target as a dotted path. -/
def path (t : TargetSource) : Text :=
  t.qualifier ++ t.column.text

/-- A target with its column as the only one of a list. -/
def listed (t : TargetSource) : Text :=
  t.qualifier ++ '(' :: (t.column.text ++ [')'])

/-- The line of a relationship, from its left side, the symbol between blanks and what follows. -/
def line (left : TargetSource) (before : Text) (kind : RelationKind) (after right : Text) : Text :=
  left.path ++ (before ++ (kind.symbol.toList ++ (after ++ right)))

/-- A target as one side of an explicit relationship. -/
def endpoint (t : TargetSource) : Endpoint where
  schema := t.schema?.map fun n => String.ofList n.content
  table := String.ofList t.table.content
  columns := [String.ofList t.column.content]

/-- A target as the other side of a relationship that a column declares. -/
def inlineRef (t : TargetSource) (kind : RelationKind) : InlineRef where
  kind
  schema := t.schema?.map fun n => String.ofList n.content
  table := String.ofList t.table.content
  column := String.ofList t.column.content

variable (t : TargetSource)

/-- A path is made of its names with dots between them. -/
theorem path_eq_intercalate :
  t.path = ['.'].intercalate (t.names.map AcceptedName.text)
  := by
  rw [path, qualifier, names]
  cases t.schema? with
  | some n => simp [AcceptedName.dotted, List.intercalate_cons_cons]
  | none => simp [AcceptedName.dotted, List.intercalate_cons_cons]

theorem path_append_dot :
  t.path ++ ['.'] = AcceptedName.dotted t.names
  := by
  rw [path, qualifier, names]
  simp [AcceptedName.dotted]

theorem exists_qualifier_eq :
  ∃ (n : AcceptedName) (s : Text), t.qualifier = n.text ++ s
  := by
  rw [qualifier]
  cases t.schema? with
  | some n => exact ⟨n, ['.'] ++ AcceptedName.dotted [t.table], List.append_assoc _ _ _⟩
  | none => exact ⟨t.table, ['.'], List.flatMap_singleton ..⟩

/-- A qualified text without blanks at its end has none around it. -/
theorem trimmed_qualified {u : Text} (hu : Trimmed u) (hn : u ≠ []) :
  Trimmed (t.qualifier ++ u)
  := by
  obtain ⟨n, s, hq⟩ := t.exists_qualifier_eq
  rw [hq, List.append_assoc]
  apply n.trimmed_text.append hu n.text_ne_nil hn

/-- What is between a symbol and a target does not prolong the symbol. -/
theorem head?_ne_of_blanks {after : Text} (ha : ∀ c ∈ after, isBlank c) (u : Text) :
  (after ++ (t.qualifier ++ u)).head? ≠ some '>'
  := by
  intro h
  cases after with
  | nil =>
    obtain ⟨n, s, hq⟩ := t.exists_qualifier_eq
    rw [List.nil_append, hq, List.append_assoc, List.head?_append_of_ne_nil _ n.text_ne_nil] at h
    have hchar := n.of_mem_head? h
    revert hchar
    decide
  | cons c after =>
    cases h
    cases ha '>' List.mem_cons_self

theorem path_ne_nil :
  t.path ≠ []
  := List.append_ne_nil_of_right_ne_nil _ t.column.text_ne_nil

/-- The path of a target is taken from the start of a text that goes on neither with a word nor
with a dot. -/
theorem split?_path {rest : Text} (hr : ∀ c ∈ rest.head?, isWord c = false)
    (hd : rest.head? ≠ some '.') :
  Endpoint.split? (t.path ++ rest) = some (t.endpoint, rest)
  := by
  rw [path, List.append_assoc]
  exact Endpoint.split?_dotted t.schema? t.table (t.column.splitColumns?_append hr)
    (t.column.splitQualifier?_eq_none hr hd)

/-- A relationship is read from its line if an endpoint is read of what is behind the symbol. -/
theorem readLine?_line (left : TargetSource) {before after : Text} (hb : ∀ c ∈ before, isBlank c)
    (kind : RelationKind) (ha : ∀ c ∈ after, isBlank c) {u rest : Text} (hu : Trimmed u)
    (hn : u ≠ []) {e : Endpoint} (h : Endpoint.split? (t.qualifier ++ u) = some (e, rest)) :
  Relationship.readLine? none (left.line before kind after (t.qualifier ++ u))
    = if allBlank (Settings.readGroups (trimStart rest)).2 && !e.columns.isEmpty then
        some (.between left.endpoint kind e
          ((Settings.readGroups (trimStart rest)).1.filter Attribute.isPair))
      else none
  := by
  have hright := t.trimmed_qualified hu hn
  have hline : Trimmed (left.line before kind after (t.qualifier ++ u)) := by
    obtain ⟨n, s, hq⟩ := left.exists_qualifier_eq
    have hsplit : left.line before kind after (t.qualifier ++ u)
        = n.text ++ ((s ++ (left.column.text ++ (before ++ (kind.symbol.toList ++ after))))
          ++ (t.qualifier ++ u)) := by
      rw [line, path, hq]
      simp only [List.append_assoc]
    rw [hsplit]
    apply n.trimmed_text.append hright n.text_ne_nil (List.append_ne_nil_of_right_ne_nil _ hn)
  have hmiddle : ∀ c ∈ (before ++ (kind.symbol.toList ++ (after ++ (t.qualifier ++ u)))).head?,
      isBlank c ∨ c ∈ ['<', '>', '-'] := by
    intro c hc
    cases before with
    | nil => exact .inr (RelationKind.of_mem_head?_symbol hc)
    | cons d before =>
      cases hc
      exact .inl (hb c List.mem_cons_self)
  have hleft : Endpoint.split? (left.line before kind after (t.qualifier ++ u))
      = some (left.endpoint,
        before ++ (kind.symbol.toList ++ (after ++ (t.qualifier ++ u)))) := by
    apply left.split?_path
    · intro c hc
      rw [← Bool.not_eq_true]
      intro hw
      rcases hmiddle c hc with hblank | hsymbol
      · rw [isBlank_eq_false_of_isWord hw] at hblank
        cases hblank
      · exact notMem_of_all (by decide) hw hsymbol
    · intro hdot
      have hchar := hmiddle '.' hdot
      revert hchar
      decide
  have hsymbol : trimStart (before ++ (kind.symbol.toList ++ (after ++ (t.qualifier ++ u))))
      = kind.symbol.toList ++ (after ++ (t.qualifier ++ u)) := by
    apply trimStart_append hb
    intro c hc
    exact RelationKind.isBlank_symbol c (RelationKind.of_mem_head?_symbol hc)
  have hspace : trimStart (after ++ (t.qualifier ++ u)) = t.qualifier ++ u :=
    trimStart_append ha hright.1
  have hcolumns : left.endpoint.columns.isEmpty = false := rfl
  rw [Relationship.readLine?, hline.trim_eq, hleft]
  dsimp only [bind, Option.bind]
  rw [hsymbol, kind.split?_append (t.head?_ne_of_blanks ha u)]
  dsimp only
  rw [hspace, h]
  dsimp only
  rw [hcolumns, Bool.not_false, Bool.and_true]
  rfl

/-- The names of a path are found in it, two or three of them. -/
theorem exists_names_of_path :
  ∃ first afterFirst second afterSecond, Endpoint.splitQualifier? t.path = some (first, afterFirst)
    ∧ splitName? afterFirst = some (second, afterSecond)
    ∧ (afterSecond = [] ∨ ∃ dotted third, splitChar? '.' afterSecond = some dotted
      ∧ splitName? dotted = some (third, []))
  := by
  have hend : ∀ c ∈ ([] : Text).head?, isWord c = false := by
    rintro c ⟨⟩
  have hdot : ∀ c ∈ ('.' :: t.column.text).head?, isWord c = false := by
    rintro c ⟨⟩
    rfl
  have hcolumn := t.column.splitName?_append hend
  rw [List.append_nil] at hcolumn
  rw [path, qualifier]
  cases t.schema? with
  | some n =>
    have htable := t.table.splitName?_append hdot
    refine ⟨n.text, _, _, _, ?_, htable, .inr ⟨_, _, splitChar?_cons _ _, hcolumn⟩⟩
    have h := n.splitQualifier?_append (t.table.text ++ '.' :: t.column.text)
    simpa [AcceptedName.dotted] using h
  | none =>
    refine ⟨t.table.text, _, _, _, ?_, hcolumn, .inl rfl⟩
    have h := t.table.splitQualifier?_append t.column.text
    simpa [AcceptedName.dotted] using h

/-- The value of the setting `ref` is read from the parts of the path in it. -/
theorem read?_path (kind : RelationKind) {after : Text} (ha : ∀ c ∈ after, isBlank c) :
  InlineRef.read? (kind.symbol.toList ++ (after ++ t.path))
    = InlineRef.ofPath? kind (splitPath t.path)
  := by
  have hpath : Trimmed t.path :=
    t.trimmed_qualified t.column.trimmed_text t.column.text_ne_nil
  have hvalue : Trimmed (kind.symbol.toList ++ (after ++ t.path)) := by
    have hsymbol : Trimmed kind.symbol.toList ∧ kind.symbol.toList ≠ [] := by
      constructor
      · apply trimmed_of_forall
        cases kind <;> exact forall_mem_of_all (by decide)
      · cases kind <;> decide
    apply hsymbol.1.append hpath hsymbol.2 t.path_ne_nil
  have hspace : trimStart (after ++ t.path) = t.path := trimStart_append ha hpath.1
  have hhead : (after ++ t.path).head? ≠ some '>' := t.head?_ne_of_blanks ha t.column.text
  obtain ⟨first, afterFirst, second, afterSecond, hfirst, hsecond, hend⟩ := t.exists_names_of_path
  rw [InlineRef.read?, hvalue.trim_eq, kind.split?_append hhead]
  dsimp only [bind, Option.bind]
  rw [hspace, hfirst]
  dsimp only
  rw [hsecond]
  dsimp only
  rw [if_pos]
  · rfl
  · rcases hend with rfl | ⟨dotted, third, hdot, hthird⟩
    · rfl
    · rw [hdot]
      dsimp only
      rw [hthird]
      apply Bool.or_true

/-- The names of a path make its inline reference. -/
theorem ofPath?_names (kind : RelationKind) :
  InlineRef.ofPath? kind (t.names.map AcceptedName.content) = some (t.inlineRef kind)
  := by
  rw [names, inlineRef]
  cases t.schema? <;> rfl

/-- The names of a reference are the last ones of its path. -/
theorem suffix_of_ofPath? {kind : RelationKind} {parts : List Text}
    (h : InlineRef.ofPath? kind parts = some (t.inlineRef kind)) :
  t.names.map AcceptedName.content <:+ parts
  := by
  rw [← List.reverse_prefix]
  rw [InlineRef.ofPath?] at h
  split at h
  · rename_i column table schema hparts
    rw [hparts, names]
    rw [inlineRef, Option.some.injEq, InlineRef.mk.injEq] at h
    obtain ⟨_, hschema, htable, hcolumn⟩ := h
    rw [String.ofList_inj.mp htable, String.ofList_inj.mp hcolumn]
    cases hs : t.schema? with
    | some n =>
      rw [hs] at hschema
      obtain ⟨first, hfirst, hn⟩ := Option.map_eq_some_iff.mp hschema
      obtain ⟨more, rfl⟩ := List.head?_eq_some_iff.mp hfirst
      rw [String.ofList_inj.mp hn]
      exact ⟨more, rfl⟩
    | none => exact ⟨schema, rfl⟩
  · cases h

/-! ### The three forms -/

/-- A path in the setting `ref` is read as what it stands for if and only if it is cut at the dots
between its names. -/
theorem read?_path_eq_iff (kind : RelationKind) {after : Text} (ha : ∀ c ∈ after, isBlank c) :
  InlineRef.read? (kind.symbol.toList ++ (after ++ t.path)) = some (t.inlineRef kind)
    ↔ splitTopLevel '.' t.path = t.names.map AcceptedName.text
  := by
  rw [t.read?_path kind ha]
  constructor
  · intro h
    apply AcceptedName.eq_map_text_of_suffix _ (t.suffix_of_ofPath? h)
    rw [← intercalate_append_separator '.' (splitTopLevel_ne_nil '.' t.path),
      intercalate_splitTopLevel, t.path_append_dot]
  · intro h
    have hunquote : unquote ∘ AcceptedName.text = AcceptedName.content :=
      funext fun n => n.unquote_eq
    rw [splitPath, h, List.map_map, hunquote, t.ofPath?_names]

/-- An explicit relationship is read from its line. -/
theorem readLine?_path (left : TargetSource) {before after : Text} (hb : ∀ c ∈ before, isBlank c)
    (kind : RelationKind) (ha : ∀ c ∈ after, isBlank c) :
  Relationship.readLine? none (left.line before kind after t.path)
    = some (.between left.endpoint kind t.endpoint [])
  := by
  have hend : ∀ c ∈ ([] : Text).head?, isWord c = false := by
    rintro c ⟨⟩
  have h := t.split?_path hend (by rintro ⟨⟩)
  rw [List.append_nil, path] at h
  rw [path, t.readLine?_line left hb kind ha t.column.trimmed_text t.column.text_ne_nil h,
    Settings.readGroups_trimStart_nil]
  rfl

/-- What is read of the line of a relationship with a list of columns behind the symbol. -/
theorem readLine?_listed (left : TargetSource) {before after : Text} (hb : ∀ c ∈ before, isBlank c)
    (kind : RelationKind) (ha : ∀ c ∈ after, isBlank c) {inner rest : Text}
    (hcut : cutAtMark [')'] (t.column.text ++ [')']) = some (inner, rest)) :
  Relationship.readLine? none (left.line before kind after t.listed)
    = if allBlank (Settings.readGroups (trimStart rest)).2 && !(listNames inner).isEmpty then
        some (.between left.endpoint kind
          { t.endpoint with columns := (listNames inner).map String.ofList }
          ((Settings.readGroups (trimStart rest)).1.filter Attribute.isPair))
      else none
  := by
  have hlist : Trimmed ('(' :: (t.column.text ++ [')'])) := trimmed_enclosed rfl rfl _
  have h := Endpoint.split?_dotted t.schema? t.table (Endpoint.splitColumns?_list hcut) rfl
  rw [listed, t.readLine?_line left hb kind ha hlist (List.cons_ne_nil _ _) h]
  dsimp only
  rw [List.isEmpty_map]
  rfl

/-- A column in parentheses is read if and only if it holds none that closes them and it is not cut
at a comma. -/
theorem readLine?_listed_eq_iff (left : TargetSource) {before after : Text}
    (hb : ∀ c ∈ before, isBlank c) (kind : RelationKind) (ha : ∀ c ∈ after, isBlank c) :
  Relationship.readLine? none (left.line before kind after t.listed)
      = some (.between left.endpoint kind t.endpoint [])
    ↔ ')' ∉ t.column.content ∧ splitTopLevel ',' t.column.text = [t.column.text]
  := by
  have hnames {inner rest : Text}
      (hcut : cutAtMark [')'] (t.column.text ++ [')']) = some (inner, rest))
      (h : Relationship.readLine? none (left.line before kind after t.listed)
        = some (.between left.endpoint kind t.endpoint [])) :
      listNames inner = [t.column.content] := by
    rw [t.readLine?_listed left hb kind ha hcut, Option.ite_none_right_eq_some,
      Option.some.injEq] at h
    apply List.map_injective_iff.mpr fun _ _ => String.ofList_inj.mp
    exact congrArg Relationship.rightColumns h.2
  by_cases hp : ')' ∈ t.column.text
  · -- the list ends within the name, whose content has a character that the list lacks
    obtain ⟨inner, rest, ht, hinner⟩ := List.eq_append_cons_of_mem hp
    have hcut := cutAtMark_append hinner (rest ++ [')'])
    rw [← List.cons_append, ← List.append_assoc, ← ht] at hcut
    have hcontent := t.column.mem_content_of_mem_text rfl hp
    constructor
    · intro h
      have hmem : t.column.content ∈ listNames inner := by
        rw [hnames hcut h]
        apply List.mem_cons_self
      exact absurd (mem_of_mem_listNames hmem hcontent (by decide)) hinner
    · intro h
      exact absurd hcontent h.1
  · have hcut := cutAtMark_append hp []
    have hcontent : ')' ∉ t.column.content := fun h => hp (t.column.content_subset_text h)
    constructor
    · intro h
      exact ⟨hcontent, t.column.listNames_eq_singleton_iff.mp (hnames hcut h)⟩
    · intro h
      rw [t.readLine?_listed left hb kind ha hcut, t.column.listNames_eq_singleton_iff.mpr h.2,
        Settings.readGroups_trimStart_nil]
      rfl

/-- Names in closed quotes are not cut, whatever they hold. -/
theorem splitTopLevel_of_isClosed (h : ∀ n ∈ t.names, n.IsClosed) :
  splitTopLevel '.' t.path = t.names.map AcceptedName.text
    ∧ splitTopLevel ',' t.column.text = [t.column.text]
  := by
  constructor
  · rw [t.path_eq_intercalate]
    apply AcceptedName.splitTopLevel_intercalate rfl (by decide) rfl _ h
    apply List.append_ne_nil_of_right_ne_nil _ (List.cons_ne_nil _ _)
  · have hcolumn : ∀ n ∈ [t.column], n.IsClosed := by
      rw [List.forall_mem_singleton]
      apply h
      apply List.mem_append_right _ (List.mem_cons_of_mem _ List.mem_cons_self)
    have hsplit := @AcceptedName.splitTopLevel_intercalate ',' rfl (by decide) rfl _
      (List.cons_ne_nil _ _) hcolumn
    rwa [List.map_singleton, List.intercalate_singleton] at hsplit

end TargetSource

/-- The path of any target is read in an explicit relationship.  The setting `ref` says the same of
it if and only if the scanner of delimiters cuts it at the dots between its names, and the column
may be in parentheses if and only if it holds none that closes them and the scanner does not cut it
at a comma.  The scanner does so if every name ends where its quote is closed. -/
theorem target_forms_agree (left target : TargetSource) (kind : RelationKind) {before after : Text}
    (hb : ∀ c ∈ before, isBlank c) (ha : ∀ c ∈ after, isBlank c) :
  Relationship.readLine? none (left.line before kind after target.path)
      = some (.between left.endpoint kind target.endpoint [])
    ∧ (InlineRef.read? (kind.symbol.toList ++ (after ++ target.path))
        = some (target.inlineRef kind)
      ↔ splitTopLevel '.' target.path = target.names.map AcceptedName.text)
    ∧ (Relationship.readLine? none (left.line before kind after target.listed)
        = some (.between left.endpoint kind target.endpoint [])
      ↔ ')' ∉ target.column.content
        ∧ splitTopLevel ',' target.column.text = [target.column.text])
    ∧ ((∀ n ∈ target.names, n.IsClosed) →
      splitTopLevel '.' target.path = target.names.map AcceptedName.text
        ∧ splitTopLevel ',' target.column.text = [target.column.text])
  := by
  refine ⟨?_, ?_, ?_, ?_⟩
  · exact target.readLine?_path left hb kind ha
  · exact target.read?_path_eq_iff kind ha
  · exact target.readLine?_listed_eq_iff left hb kind ha
  · exact target.splitTopLevel_of_isClosed

/-- Dots, commas, opening parentheses, other quotes and most backslashes make no difference. -/
theorem target_forms_agree_on_closed_quotes :
  let path := "\"a.(b\".\x27t\\u\x27.\x60c,\"d\\\x60".toList
  let listed := "\"a.(b\".\x27t\\u\x27.(\x60c,\"d\\\x60)".toList
  let left := "x.y > ".toList
  let relationship : Relationship :=
    .between ⟨none, "x", ["y"]⟩ .manyToOne ⟨some "a.(b", "t\\u", ["c,\"d\\"]⟩ []
  Relationship.readLine? none (left ++ path) = some relationship
    ∧ InlineRef.read? ('>' :: ' ' :: path)
      = some ⟨.manyToOne, some "a.(b", "t\\u", "c,\"d\\"⟩
    ∧ Relationship.readLine? none (left ++ listed) = some relationship
  := by
  intro path listed left relationship
  let x : AcceptedName := .bare ['x'] (by decide) (forall_mem_of_all (by decide))
  let y : AcceptedName := .bare ['y'] (by decide) (forall_mem_of_all (by decide))
  let a : AcceptedName :=
    .enclosed quotationMark "a.(b".toList rfl (by decide) (by decide) (by decide)
  let u : AcceptedName :=
    .enclosed apostrophe "t\\u".toList rfl (by decide) (by decide) (by decide)
  let d : AcceptedName :=
    .enclosed backtick "c,\"d\\".toList rfl (by decide) (by decide) (by decide)
  have ha : a.IsClosed := by
    apply a.isClosed_of_getLast?
    rintro _ ⟨⟩
    decide
  have hu : u.IsClosed := by
    apply u.isClosed_of_getLast?
    rintro _ ⟨⟩
    decide
  have hd : d.IsClosed := by
    apply d.isClosed_of_getLast?
    rintro _ ⟨⟩
    decide
  have hclosed : ∀ n ∈ [a, u, d], n.IsClosed :=
    List.forall_mem_cons.mpr ⟨ha, List.forall_mem_cons.mpr ⟨hu, List.forall_mem_singleton.mpr hd⟩⟩
  have hspace : ∀ c ∈ [' '], isBlank c := List.forall_mem_singleton.mpr rfl
  obtain ⟨hpath, hinline, hlisted, hsplit⟩ :=
    target_forms_agree ⟨none, x, y⟩ ⟨some a, u, d⟩ .manyToOne hspace hspace
  obtain ⟨hdots, hcomma⟩ := hsplit hclosed
  exact ⟨hpath, hinline.mpr hdots, hlisted.mpr ⟨by decide, hcomma⟩⟩

/-- A parenthesis in a column ends a list early, and a backslash in front of the quote behind a name
hides that quote in the setting `ref`. -/
theorem target_forms_differ :
  let parenthesis := "t.\"a)b\"".toList
  let backslash := "\"a\\\".\"b\"".toList
  let left := "x.y > ".toList
  Relationship.readLine? none (left ++ parenthesis)
      = some (.between ⟨none, "x", ["y"]⟩ .manyToOne ⟨none, "t", ["a)b"]⟩ [])
    ∧ Relationship.readLine? none (left ++ "t.(\"a)b\")".toList) = none
    ∧ Relationship.readLine? none (left ++ backslash)
      = some (.between ⟨none, "x", ["y"]⟩ .manyToOne ⟨none, "a\\", ["b"]⟩ [])
    ∧ InlineRef.read? ('>' :: ' ' :: backslash) = none
  := by
  refine ⟨?_, ?_, ?_, ?_⟩
  all_goals decide +kernel

end DatabaseMarkup
