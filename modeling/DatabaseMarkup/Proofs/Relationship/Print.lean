import DatabaseMarkup.Document.Reader
import DatabaseMarkup.Proofs.Block.Print
import DatabaseMarkup.Proofs.Diagnostic.Order

/-!
# Printed relationships

A `RelationshipSource` is a relationship as it is written on a line: two endpoints with the symbol
of its kind between them, and settings.  `relationships_survive_printing` states that a list of
such lines is read back as it was written, be each line a reference of its own or all of them the
body of one.
-/

namespace DatabaseMarkup

open Unicode Text

/-! ## Endpoints -/

namespace AcceptedName

/-- Names with a dot behind each of them. -/
def dotted (ns : List AcceptedName) : Text :=
  ns.flatMap fun n => n.text ++ ['.']

variable (n : AcceptedName)

/-- A name before a dot qualifies what is behind the dot. -/
theorem splitQualifier?_append (rest : Text) :
  Endpoint.splitQualifier? (n.text ++ '.' :: rest) = some (n.text, rest)
  := by
  have hr : ∀ c ∈ ('.' :: rest).head?, isWord c = false := by
    rintro c ⟨⟩
    rfl
  rw [Endpoint.splitQualifier?, n.splitName?_append hr]
  dsimp only
  rw [splitChar?_cons, Option.map_some]

section

variable {rest : Text} (hr : ∀ c ∈ rest.head?, isWord c = false)

include hr

/-- A name that no dot follows qualifies nothing. -/
theorem splitQualifier?_eq_none (hd : rest.head? ≠ some '.') :
  Endpoint.splitQualifier? (n.text ++ rest) = none
  := by
  have hdot : splitChar? '.' rest = none := by
    cases rest with
    | nil => rfl
    | cons c rest =>
      rw [splitChar?, if_neg]
      rintro rfl
      apply hd rfl
  rw [Endpoint.splitQualifier?, n.splitName?_append hr]
  dsimp only
  rw [hdot, Option.map_none]

/-- A single column is taken from the start of a text. -/
theorem splitColumns?_append :
  Endpoint.splitColumns? (n.text ++ rest) = some ([String.ofList n.content], rest)
  := by
  obtain ⟨c, t, ht⟩ := List.exists_cons_of_ne_nil n.text_ne_nil
  have hc : c ≠ '(' := by
    rintro rfl
    have h := n.of_mem_head? (c := '(') (by rw [ht]; rfl)
    revert h
    decide
  have hname := n.splitName?_append hr
  rw [ht, List.cons_append] at hname
  rw [ht, List.cons_append, Endpoint.splitColumns?, if_neg hc, hname]
  dsimp only
  rw [← ht, n.unquote_eq]

end

/-- Nothing in a name separates, be it a comma or a dot. -/
theorem not_isDelimiter_lexemes {separator : Char} (hs : isWord separator = false) :
  ∀ l ∈ n.lexemes, l ≠ .plain separator ∧ isDelimiter l = false
  := by
  have hd : ∀ l ∈ n.lexemes, l ≠ .plain ',' ∧ isDelimiter l = false := by
    apply not_isDelimiter_of_plains
    refine n.plains_lexemes.mono fun c hc => ?_
    apply notMem_of_all (by decide) hc
  intro l hl
  refine ⟨?_, (hd l hl).2⟩
  rintro rfl
  have hw : isWord separator := n.plains_lexemes separator hl
  rw [hs] at hw
  cases hw

end AcceptedName

/-- The names in a list of columns. -/
def Text.listNames (t : Text) : List Text :=
  ((splitTopLevel ',' t).map unquote).filter fun name => !name.isEmpty

/-- A list of columns ends at its first closing parenthesis. -/
theorem Endpoint.splitColumns?_list {t inner rest : Text}
    (h : cutAtMark [')'] t = some (inner, rest)) :
  splitColumns? ('(' :: t) = some ((listNames inner).map String.ofList, rest)
  := by
  rw [splitColumns?, if_pos rfl, h]
  rfl

/-- The names before the columns of an endpoint are its table and the schema in front of that. -/
theorem Endpoint.split?_dotted (schema? : Option AcceptedName) (table : AcceptedName)
    {t rest : Text} {columns : List String} (hc : splitColumns? t = some (columns, rest))
    (hq : splitQualifier? t = none) :
  split? (AcceptedName.dotted (schema?.toList ++ [table]) ++ t)
    = some (⟨schema?.map fun n => String.ofList n.content, String.ofList table.content, columns⟩,
      rest)
  := by
  have htable := table.splitQualifier?_append t
  cases schema? with
  | some n =>
    have hschema := n.splitQualifier?_append (table.text ++ '.' :: t)
    have hdotted : AcceptedName.dotted [n, table] ++ t
        = n.text ++ '.' :: (table.text ++ '.' :: t) := by
      simp [AcceptedName.dotted]
    rw [Option.toList_some, List.singleton_append, hdotted, split?, hschema]
    dsimp only [bind, Option.bind]
    rw [htable]
    dsimp only
    rw [hc]
    dsimp only
    rw [n.unquote_eq, table.unquote_eq]
    rfl
  | none =>
    have hdotted : AcceptedName.dotted [table] ++ t = table.text ++ '.' :: t := by
      simp [AcceptedName.dotted]
    rw [Option.toList_none, List.nil_append, hdotted, split?, htable]
    dsimp only [bind, Option.bind]
    rw [hq]
    dsimp only
    rw [hc]
    dsimp only
    rw [table.unquote_eq]
    rfl

/-- A written name that may stand in a list in parentheses. -/
structure Identifier extends WrittenName where
  parenthesis_notMem : ')' ∉ content

namespace Identifier

/-- The content of an identifier. -/
def string (n : Identifier) : String :=
  String.ofList n.content

variable (n : Identifier)

theorem parenthesis_notMem_text :
  ')' ∉ n.text
  := fun h => n.parenthesis_notMem (n.accepted.mem_content_of_mem_text rfl h)

/-- The lexemes of an identifier neither separate nor delimit. -/
theorem not_isDelimiter_lexemes :
  ∀ l ∈ n.lexemes, l ≠ .plain ',' ∧ isDelimiter l = false
  := n.accepted.not_isDelimiter_lexemes rfl

end Identifier

/-- The columns of an endpoint: a single one, or a list in parentheses, which is not empty. -/
inductive ColumnsSource where
  | single (column : Identifier)
  | list (first : Identifier) (more : List Identifier)

namespace ColumnsSource

/-- The columns of an endpoint. -/
def identifiers : ColumnsSource → List Identifier
  | single n => [n]
  | list n ns => n :: ns

/-- The list in the parentheses of columns. -/
def inner (ns : List Identifier) : Text :=
  [',', ' '].intercalate (ns.map fun n => n.text)

/-- Columns as they are written. -/
def print : ColumnsSource → Text
  | single n => n.text
  | list n ns => '(' :: (inner (n :: ns) ++ [')'])

/-! ### Reading columns -/

theorem parenthesis_notMem_inner (ns : List Identifier) :
  ')' ∉ inner ns
  := by
  have h : ∀ c ∈ inner ns, c ≠ ')' := by
    apply forall_mem_intercalate
    · simp
    · intro t ht
      obtain ⟨n, _, rfl⟩ := List.mem_map.mp ht
      rintro c hc rfl
      apply n.parenthesis_notMem_text hc
  exact fun hm => h _ hm rfl

theorem newline_notMem_inner (ns : List Identifier) :
  '\n' ∉ inner ns
  := by
  have h : ∀ c ∈ inner ns, c ≠ '\n' := by
    apply forall_mem_intercalate
    · simp
    · intro t ht
      obtain ⟨n, _, rfl⟩ := List.mem_map.mp ht
      rintro c hc rfl
      apply n.newline_notMem_text hc
  exact fun hm => h _ hm rfl

/-- The names of a list are split from each other and lose their quotes. -/
theorem map_unquote_inner (n : Identifier) (ns : List Identifier) :
  (splitTopLevel ',' (inner (n :: ns))).map unquote = (n :: ns).map fun m => m.content
  := by
  have hl : ∀ m ∈ n :: ns, Lexes m.text m.lexemes := fun m _ => m.lexes_text
  have hd : ∀ m ∈ n :: ns, ∀ l ∈ m.lexemes, l ≠ .plain ',' ∧ isDelimiter l = false :=
    fun m _ => m.not_isDelimiter_lexemes
  have hspace (m : Identifier) : unquote (' ' :: m.text) = m.content := by
    have h := m.unquote_text (s := [' ']) (List.forall_mem_singleton.mpr rfl)
      (List.forall_mem_nil _)
    rwa [List.append_nil] at h
  have hsplit : splitTopLevel ',' (inner (n :: ns)) = n.text :: ns.map fun m => ' ' :: m.text := by
    have hq : ∀ c ∈ [' '], isQuote c = false := List.forall_mem_singleton.mpr rfl
    have hp : ∀ c ∈ [' '], .plain c ≠ Lexeme.plain ',' ∧ isDelimiter (.plain c) = false :=
      List.forall_mem_singleton.mpr (by decide)
    rw [splitTopLevel, inner, (lexes_intercalate rfl hq hl).lexemes_eq,
      splitLexemes_intercalate (by decide) hp hl hd]
    rfl
  rw [hsplit, List.map_cons, List.map_cons, List.map_map, n.unquote_eq]
  exact congrArg (n.content :: ·) (List.map_congr_left fun m _ => hspace m)

section

variable (cs : ColumnsSource) {rest : Text}

/-- Columns are taken from the start of a text. -/
theorem splitColumns?_append (hr : ∀ c ∈ rest.head?, isWord c = false) :
  Endpoint.splitColumns? (cs.print ++ rest) = some (cs.identifiers.map Identifier.string, rest)
  := by
  cases cs with
  | single n => exact n.accepted.splitColumns?_append hr
  | list n ns =>
    have hcut := cutAtMark_append (parenthesis_notMem_inner (n :: ns)) rest
    have hne : ((n :: ns).map fun m => m.content).filter (fun n => !n.isEmpty)
        = (n :: ns).map fun m => m.content := by
      apply List.filter_eq_self.mpr
      intro t ht
      obtain ⟨m, _, rfl⟩ := List.mem_map.mp ht
      rw [Bool.not_eq_true', Bool.eq_false_iff, ne_eq, List.isEmpty_iff]
      apply m.content_ne_nil
    rw [print, List.cons_append, List.append_assoc, List.singleton_append,
      Endpoint.splitColumns?_list hcut, listNames, map_unquote_inner, hne, List.map_map]
    rfl

/-- Columns qualify nothing. -/
theorem splitQualifier?_append (hr : ∀ c ∈ rest.head?, isWord c = false)
    (hd : rest.head? ≠ some '.') :
  Endpoint.splitQualifier? (cs.print ++ rest) = none
  := by
  cases cs with
  | single n => exact n.accepted.splitQualifier?_eq_none hr hd
  | list n ns => rfl

end

theorem print_ne_nil (cs : ColumnsSource) :
  cs.print ≠ []
  := by
  cases cs with
  | single n => exact n.text_ne_nil
  | list n ns => apply List.cons_ne_nil

/-- Printed columns have no blanks around them. -/
theorem trimmed_print (cs : ColumnsSource) :
  Trimmed cs.print
  := by
  cases cs with
  | single n => exact n.trimmed_text
  | list n ns =>
    exact trimmed_enclosed rfl rfl (inner (n :: ns))

theorem newline_notMem_print (cs : ColumnsSource) :
  '\n' ∉ cs.print
  := by
  cases cs with
  | single n => exact n.newline_notMem_text
  | list n ns =>
    simp only [print, List.mem_cons, List.mem_append, List.not_mem_nil, or_false, not_or]
    exact ⟨by decide, newline_notMem_inner _, by decide⟩

/-- Printed columns have neither comments nor braces. -/
theorem flat_print (cs : ColumnsSource) :
  Flat cs.print
  := by
  cases cs with
  | single n => exact flat_name n.toWrittenName
  | list n ns =>
    have hinner : Flat (inner (n :: ns)) := by
      apply flat_intercalate
      intro t ht
      obtain ⟨m, _, rfl⟩ := List.mem_map.mp ht
      apply flat_name m.toWrittenName
    have hclose : Flat [')'] := flat_nil.chars (by decide : [')'].all _)
    exact (hinner.append hclose (by rintro ⟨⟩)).chars (by decide : ['('].all _)

end ColumnsSource

/-- One side of a relationship as it is written. -/
structure EndpointSource where
  schema? : Option Identifier
  table : Identifier
  columns : ColumnsSource

namespace EndpointSource

/-- The schema of an endpoint as it is written. -/
def qualifier (e : EndpointSource) : Text :=
  match e.schema? with
  | some n => n.text ++ ['.']
  | none => []

/-- An endpoint as it is written. -/
def print (e : EndpointSource) : Text :=
  e.qualifier ++ (e.table.text ++ '.' :: e.columns.print)

/-- The endpoint that a text stands for. -/
def endpoint (e : EndpointSource) : Endpoint where
  schema := e.schema?.map Identifier.string
  table := e.table.string
  columns := e.columns.identifiers.map Identifier.string

variable (e : EndpointSource)

/-- An endpoint is printed with or without its schema. -/
theorem print_eq :
  (∃ n, e.schema? = some n
      ∧ e.print = n.text ++ '.' :: (e.table.text ++ '.' :: e.columns.print))
    ∨ (e.schema? = none ∧ e.print = e.table.text ++ '.' :: e.columns.print)
  := by
  rw [print, qualifier]
  cases e.schema? with
  | some n =>
    refine .inl ⟨n, rfl, ?_⟩
    rw [List.append_assoc]
    rfl
  | none => exact .inr ⟨rfl, rfl⟩

/-- An endpoint is taken from the start of a text that goes on neither with a word nor with a
dot. -/
theorem split?_append {rest : Text} (hr : ∀ c ∈ rest.head?, isWord c = false)
    (hd : rest.head? ≠ some '.') :
  Endpoint.split? (e.print ++ rest) = some (e.endpoint, rest)
  := by
  have hprint : e.print ++ rest
      = AcceptedName.dotted ((e.schema?.map fun n => n.accepted).toList ++ [e.table.accepted])
        ++ (e.columns.print ++ rest) := by
    rcases e.print_eq with ⟨n, hs, hp⟩ | ⟨hs, hp⟩
    · rw [hp, hs]
      simp [AcceptedName.dotted, WrittenName.accepted, AcceptedName.text, WrittenName.text]
    · rw [hp, hs]
      simp [AcceptedName.dotted, WrittenName.accepted, AcceptedName.text, WrittenName.text]
  rw [hprint, Endpoint.split?_dotted _ _ (e.columns.splitColumns?_append hr)
    (e.columns.splitQualifier?_append hr hd), Option.map_map]
  rfl

theorem print_ne_nil :
  e.print ≠ []
  := by
  rw [print]
  apply List.append_ne_nil_of_right_ne_nil
  apply List.append_ne_nil_of_left_ne_nil e.table.text_ne_nil

/-- A printed endpoint has no blanks around it. -/
theorem trimmed_print :
  Trimmed e.print
  := by
  have ht : Trimmed (e.table.text ++ '.' :: e.columns.print) :=
    e.table.trimmed_text.append e.columns.trimmed_print e.table.text_ne_nil e.columns.print_ne_nil
      ['.']
  rcases e.print_eq with ⟨n, _, hp⟩ | ⟨_, hp⟩
  · rw [hp]
    apply n.trimmed_text.append ht n.text_ne_nil
      (List.append_ne_nil_of_left_ne_nil e.table.text_ne_nil _) ['.']
  · rw [hp]
    exact ht

theorem newline_notMem_print :
  '\n' ∉ e.print
  := by
  have ht : '\n' ∉ e.table.text ++ '.' :: e.columns.print := by
    simp only [List.mem_cons, List.mem_append, not_or]
    exact ⟨e.table.newline_notMem_text, by decide, e.columns.newline_notMem_print⟩
  rcases e.print_eq with ⟨n, _, hp⟩ | ⟨_, hp⟩
  · rw [hp, List.mem_append, List.mem_cons, not_or, not_or]
    exact ⟨n.newline_notMem_text, by decide, ht⟩
  · rw [hp]
    exact ht

/-- A printed endpoint has neither comments nor braces. -/
theorem flat_print :
  Flat e.print
  := by
  have ht : Flat (e.table.text ++ '.' :: e.columns.print) :=
    (e.columns.flat_print.chars (by decide : ['.'].all _)).name e.table.toWrittenName
  rcases e.print_eq with ⟨n, _, hp⟩ | ⟨_, hp⟩
  · rw [hp]
    exact (ht.chars (by decide : ['.'].all _)).name n.toWrittenName
  · rw [hp]
    exact ht

/-- An endpoint has a column. -/
theorem columns_ne_nil :
  e.endpoint.columns.isEmpty = false
  := by
  rw [endpoint]
  cases e.columns with
  | single n => rfl
  | list n ns => rfl

end EndpointSource

/-! ## Lines -/

/-- A key with a text. -/
structure TextSetting where
  key : String
  value : String
  key_ne_nil : key.toList ≠ []
  normalize_key : normalize key.toList = key.toList
  key_chars : ∀ c ∈ key.toList, isAlphanumeric c ∨ c = '_' ∨ c = ' '

/-- A key with its text as an attribute. -/
def TextSetting.toAttribute (s : TextSetting) : Attribute :=
  .pair s.key (.text s.value)

theorem TextSetting.isSimple_toAttribute (s : TextSetting) :
  s.toAttribute.IsSimple
  := by
  refine ⟨s.key_ne_nil, s.normalize_key, s.key_chars, ?_⟩
  intro key value h
  cases h
  exact ⟨s.value, rfl⟩

/-- A relationship as it is written.  The brackets around its settings may be left out if it has
none. -/
structure RelationshipSource where
  left : EndpointSource
  kind : RelationKind
  right : EndpointSource
  group? : Option (List TextSetting)

namespace RelationshipSource

/-- The settings of a relationship. -/
def settings (r : RelationshipSource) : Settings :=
  (r.group?.getD []).map TextSetting.toAttribute

/-- The settings of a relationship as they are written. -/
def group (r : RelationshipSource) : Text :=
  match r.group? with
  | some _ => r.settings.printGroup
  | none => []

/-- The line of a relationship. -/
def print (r : RelationshipSource) : Text :=
  r.left.print ++ ' ' :: (r.kind.symbol.toList ++ ' ' :: (r.right.print ++ r.group))

/-- The relationship that a line stands for, in a reference with the given name. -/
def relationship (name? : Option WrittenName) (r : RelationshipSource) : Relationship where
  name := name?.map fun n => String.ofList n.content
  leftSchema := r.left.endpoint.schema
  leftTable := r.left.endpoint.table
  leftColumns := r.left.endpoint.columns
  rightSchema := r.right.endpoint.schema
  rightTable := r.right.endpoint.table
  rightColumns := r.right.endpoint.columns
  kind := r.kind
  settings := r.settings

variable (r : RelationshipSource)

/-- The settings of a written relationship are simple. -/
theorem isSimple_settings :
  ∀ a ∈ r.settings, a.IsSimple
  := by
  intro a ha
  obtain ⟨s, _, rfl⟩ := List.mem_map.mp ha
  apply s.isSimple_toAttribute

/-- The settings of a relationship are pairs, none of which is dropped. -/
theorem filter_settings :
  r.settings.filter Attribute.isPair = r.settings
  := by
  apply List.filter_eq_self.mpr
  intro a ha
  obtain ⟨s, _, rfl⟩ := List.mem_map.mp ha
  rfl

/-- The settings of a relationship are printed as a group, or not at all if there are none. -/
theorem group_eq :
  r.group = r.settings.printGroup ∨ (r.settings = [] ∧ r.group = [])
  := by
  rw [group, settings]
  cases r.group? with
  | some _ => exact .inl rfl
  | none => exact .inr ⟨rfl, rfl⟩

/-- The settings behind a relationship are read back. -/
theorem readGroups_group :
  Settings.readGroups (trimStart r.group) = (r.settings, [])
  := by
  rcases r.group_eq with hg | ⟨hs, hg⟩
  · rw [hg]
    apply Settings.readGroups_printGroup (s := [])
      (fun a ha => (r.isSimple_settings a ha).isPrintable) (List.forall_mem_nil _)
  · rw [hg, hs]
    exact Settings.readGroups_eq_nil (by rintro ⟨⟩)

/-- The right side and the settings behind it. -/
theorem trimmed_tail :
  Trimmed (r.right.print ++ r.group) ∧ r.right.print ++ r.group ≠ []
  := by
  refine ⟨?_, List.append_ne_nil_of_left_ne_nil r.right.print_ne_nil _⟩
  rcases r.group_eq with hg | ⟨_, hg⟩
  · have hb : Trimmed [']'] := trimmed_of_forall (List.forall_mem_singleton.mpr rfl)
    rw [hg]
    apply r.right.trimmed_print.append hb r.right.print_ne_nil (List.cons_ne_nil _ _)
      (' ' :: '[' :: r.settings.print)
  · rw [hg, List.append_nil]
    apply r.right.trimmed_print

/-- A printed relationship has no blanks around it. -/
theorem trimmed_print :
  Trimmed r.print
  := by
  have hline : r.print
      = r.left.print ++ (' ' :: (r.kind.symbol.toList ++ [' ']) ++ (r.right.print ++ r.group)) := by
    rw [print, List.cons_append, List.append_assoc]
    rfl
  rw [hline]
  apply r.left.trimmed_print.append r.trimmed_tail.1 r.left.print_ne_nil r.trimmed_tail.2 _

theorem newline_notMem_print :
  '\n' ∉ r.print
  := by
  have hk : '\n' ∉ r.kind.symbol.toList := by
    cases r.kind <;> decide
  have hg : '\n' ∉ r.group := by
    rcases r.group_eq with hg | ⟨_, hg⟩
    · rw [hg]
      apply Settings.newline_notMem_printGroup r.isSimple_settings
    · rw [hg]
      apply List.not_mem_nil
  simp only [print, List.mem_append, List.mem_cons, not_or]
  exact ⟨r.left.newline_notMem_print, by decide, hk, by decide, r.right.newline_notMem_print, hg⟩

/-- A printed relationship has neither comments nor braces. -/
theorem flat_print :
  Flat r.print
  := by
  have hright : Flat (r.right.print ++ r.group) := by
    rcases r.group_eq with hg | ⟨_, hg⟩
    · rw [hg]
      apply r.right.flat_print.append (Settings.flat_printGroup r.isSimple_settings)
      rintro ⟨⟩
    · rw [hg, List.append_nil]
      apply r.right.flat_print
  have hkind : Flat (r.kind.symbol.toList ++ ' ' :: (r.right.print ++ r.group)) := by
    have hspace := hright.chars (by decide : [' '].all _)
    cases r.kind with
    | oneToMany => exact hspace.chars (by decide : ['<'].all _)
    | manyToOne => exact hspace.chars (by decide : ['>'].all _)
    | oneToOne => exact hspace.chars (by decide : ['-'].all _)
    | manyToMany => exact hspace.chars (by decide : ['<', '>'].all _)
  apply r.left.flat_print.append (hkind.chars (by decide : [' '].all _))
  rintro ⟨⟩

/-- The symbol of a kind is read between spaces. -/
theorem splitKind?_symbol (kind : RelationKind) (rest : Text) :
  RelationKind.split? (trimStart (' ' :: (kind.symbol.toList ++ ' ' :: rest)))
    = some (kind, ' ' :: rest)
  := by
  cases kind with
  | oneToMany => rfl
  | manyToOne => rfl
  | oneToOne => rfl
  | manyToMany => rfl

/-- A relationship is read from its line, whatever blanks are around it. -/
theorem readLine?_print (name? : Option WrittenName) {line : Text} (hline : trim line = r.print) :
  Relationship.readLine? (name?.map WrittenName.text) line = some (r.relationship name?)
  := by
  have hleft : Endpoint.split? r.print = some (r.left.endpoint,
      ' ' :: (r.kind.symbol.toList ++ ' ' :: (r.right.print ++ r.group))) := by
    apply r.left.split?_append
    · rintro c ⟨⟩
      rfl
    · rintro ⟨⟩
  have hright : Endpoint.split? (r.right.print ++ r.group) = some (r.right.endpoint, r.group) := by
    apply r.right.split?_append
    · rcases r.group_eq with hg | ⟨_, hg⟩
      · rw [hg]
        rintro c ⟨⟩
        rfl
      · rw [hg]
        rintro c ⟨⟩
    · rcases r.group_eq with hg | ⟨_, hg⟩
      · rw [hg]
        rintro ⟨⟩
      · rw [hg]
        rintro ⟨⟩
  have hname : (fun n => String.ofList (unquote n)) ∘ WrittenName.text
      = fun n => String.ofList n.content :=
    funext fun n => congrArg String.ofList n.unquote_eq
  have hspace : trimStart (' ' :: (r.right.print ++ r.group)) = r.right.print ++ r.group :=
    trimStart_append (s := [' ']) (List.forall_mem_singleton.mpr rfl) r.trimmed_tail.1.1
  rw [Relationship.readLine?, hline, hleft]
  dsimp only [bind, Option.bind]
  rw [splitKind?_symbol]
  dsimp only
  rw [hspace, hright]
  dsimp only
  rw [r.readGroups_group]
  dsimp only
  rw [r.left.columns_ne_nil, r.right.columns_ne_nil, r.filter_settings, Option.map_map, hname]
  rfl

/-- A printed relationship is read back from its line. -/
theorem readLine_print (name? : Option WrittenName) (offset : Nat) {line : Text}
    (hline : trim line = r.print) :
  Relationship.readLine (name?.map WrittenName.text) offset line
    = .ok (r.relationship name?)
  := by
  rw [Relationship.readLine, r.readLine?_print name? hline]

theorem print_ne_nil :
  r.print ≠ []
  := List.append_ne_nil_of_left_ne_nil r.left.print_ne_nil _

end RelationshipSource

/-! ## References -/

namespace ReferenceSource

/-- The keyword of a reference and its name, if it has one. -/
def opening (name? : Option WrittenName) : Text :=
  match name? with
  | some n => 'R' :: 'e' :: 'f' :: ' ' :: n.text
  | none => ['R', 'e', 'f']

/-- The line of a reference with a single relationship. -/
def shortLine (name? : Option WrittenName) (r : RelationshipSource) : Text :=
  opening name? ++ ':' :: ' ' :: r.print

/-- A reference for each relationship. -/
def printShort (name? : Option WrittenName) (rs : List RelationshipSource) : Text :=
  ofLines (rs.map (shortLine name?))

/-- The body of a reference. -/
def body (rs : List RelationshipSource) : Text :=
  '\n' :: ofLines (rs.map RelationshipSource.print)

/-- A reference with all relationships in its body. -/
def printBlock (name? : Option WrittenName) (rs : List RelationshipSource) : Text :=
  opening name? ++ ' ' :: '{' :: (body rs ++ ['}'])

variable (name? : Option WrittenName)

/-- The header of a reference as it is read. -/
def header (kind : BlockKind) : Header where
  kind
  name := name?.map WrittenName.text

theorem opening_eq :
  ∃ t, opening name? = 'R' :: t
  := by
  cases name? with
  | none => exact ⟨_, rfl⟩
  | some n => exact ⟨_, rfl⟩

/-- The word `Ref` is the header of a relationship if its name can be read. -/
theorem read?_reference {t : Text} {result : Header × Text}
    (h : HeaderForm.reference.readNames t = some result) :
  Header.read? ('R' :: 'e' :: 'f' :: t) = some result
  := by
  have hkeyword : HeaderForm.reference.read? ('R' :: 'e' :: 'f' :: t)
      = HeaderForm.reference.readNames t := rfl
  rw [Header.read?, HeaderForm.all, List.findSome?_cons, hkeyword, h]

/-- The header of a reference is read up to its colon or its brace. -/
theorem read?_opening {t rest : Text} {kind : BlockKind}
    (ht : ∀ c ∈ t.head?, isWord c = false) (hn : spacedName? t = none)
    (hr : ∀ name, HeaderForm.referenceEnd? name t = some ({ kind, name }, rest)) :
  Header.read? (opening name? ++ t) = some (header name? kind, rest)
  := by
  cases name? with
  | none =>
    have hw : beginsWithWord t = false := by
      cases t with
      | nil => rfl
      | cons c t => exact ht c rfl
    have hnames : HeaderForm.reference.readNames t = some ({ kind }, rest) := by
      dsimp only [HeaderForm.reference]
      rw [hw, if_neg Bool.false_ne_true, hn]
      apply hr
    apply read?_reference hnames
  | some n =>
    have hw : beginsWithWord (' ' :: (n.text ++ t)) = false := rfl
    have hnames : HeaderForm.reference.readNames (' ' :: (n.text ++ t))
        = some ({ kind, name := some n.text }, rest) := by
      dsimp only [HeaderForm.reference]
      rw [hw, if_neg Bool.false_ne_true, spacedName?_append n ht]
      apply hr
    apply read?_reference hnames

/-- The header of a one-line relationship is read back. -/
theorem read?_short (rest : Text) :
  Header.read? (opening name? ++ ':' :: rest) = some (header name? .refShort, rest)
  := by
  apply read?_opening
  · rintro c ⟨⟩
    rfl
  · rfl
  · intro name
    rfl

/-- The header of a block of relationships is read back. -/
theorem read?_block (rest : Text) :
  Header.read? (opening name? ++ ' ' :: '{' :: rest)
    = some (header name? .refBlock, '{' :: rest)
  := by
  apply read?_opening
  · rintro c ⟨⟩
    rfl
  · rfl
  · intro name
    rfl

theorem flat_opening :
  Flat (opening name?)
  := by
  cases name? with
  | none => exact flat_nil.chars (by decide : ['R', 'e', 'f'].all _)
  | some n => exact (flat_name n).chars (by decide : ['R', 'e', 'f', ' '].all _)

/-! ### References on lines of their own -/

/-- A one-line relationship is the first segment of the text that it starts. -/
theorem splitFirst_shortLine (pairs : DelimiterPairs) (finish : Nat) (r : RelationshipSource)
    (rest : Text) :
  ∃ offset, Segment.splitFirst pairs finish (shortLine name? r ++ '\n' :: rest)
    = (.block ⟨header name? .refShort, [], ' ' :: r.print, offset⟩, '\n' :: rest)
  := by
  have hend : EndsLine ('\n' :: rest) := .inr ⟨rest, rfl⟩
  have hn : '\n' ∉ ' ' :: r.print := by
    rw [List.mem_cons, not_or]
    exact ⟨by decide, r.newline_notMem_print⟩
  have hread := read?_short name? (' ' :: r.print ++ '\n' :: rest)
  rw [shortLine, List.append_assoc, List.cons_append, Segment.splitFirst, hread]
  dsimp only
  rw [if_pos (by rfl), firstLine_append hn hend, fromLineEnd_append hn hend]
  exact ⟨_, rfl⟩

/-- The line of a reference is a segment of a document, and the newline behind it begins a blank
one. -/
theorem split_shortLine (pairs : DelimiterPairs) (start finish : Nat) (r : RelationshipSource)
    (rest : Text) :
  ∃ span offset blank after next,
    Segment.split pairs start finish (shortLine name? r ++ '\n' :: rest)
      = ⟨start, span, .block ⟨header name? .refShort, [], ' ' :: r.print, offset⟩⟩
        :: ⟨blank, after, .blank⟩ :: Segment.split pairs next finish (skipBlanks rest)
  := by
  obtain ⟨offset, hfirst⟩ := splitFirst_shortLine name? pairs finish r rest
  obtain ⟨t, ht⟩ := opening_eq name?
  rw [shortLine, ht, List.cons_append, List.cons_append] at hfirst ⊢
  rw [Segment.split, if_neg (by decide), hfirst]
  dsimp only
  rw [Segment.split, if_pos (by rfl)]
  exact ⟨_, offset, _, _, _, rfl⟩

/-- What is read of references on lines of their own. -/
theorem split_printShort (pairs : DelimiterPairs) (start finish : Nat)
    (rs : List RelationshipSource) :
  (∀ b ∈ (Segment.split pairs start finish (printShort name? rs)).filterMap Segment.block?,
      b.header.kind = .refShort)
    ∧ ((Segment.split pairs start finish (printShort name? rs)).filterMap
        Segment.block?).flatMap Block.relationships
      = rs.map (fun r => Except.ok (r.relationship name?))
    ∧ (Segment.split pairs start finish (printShort name? rs)).filterMap Segment.finding? = []
  := by
  induction rs generalizing start with
  | nil =>
    rw [printShort, List.map_nil, ofLines, List.flatMap_nil, Segment.split]
    exact ⟨List.forall_mem_nil _, rfl, rfl⟩
  | cons r rs ih =>
    obtain ⟨span, offset, blank, after, next, hsplit⟩ :=
      split_shortLine name? pairs start finish r (printShort name? rs)
    have hskip : skipBlanks (printShort name? rs) = printShort name? rs := by
      cases rs with
      | nil => rfl
      | cons r' rs =>
        obtain ⟨t, ht⟩ := opening_eq name?
        rw [printShort, List.map_cons, ofLines_cons, shortLine, ht]
        rfl
    have hread : Block.relationships ⟨header name? .refShort, [], ' ' :: r.print, offset⟩
        = [.ok (r.relationship name?)] := by
      have hline : trim (' ' :: r.print) = r.print :=
        trim_append_left (s := [' ']) (List.forall_mem_singleton.mpr rfl) r.trimmed_print
      exact congrArg ([·]) (r.readLine_print name? offset hline)
    obtain ⟨hkind, hrelationships, hfindings⟩ := ih next
    rw [printShort, List.map_cons, ofLines_cons, ← printShort, hsplit, hskip]
    refine ⟨List.forall_mem_cons.mpr ⟨rfl, hkind⟩, ?_, hfindings⟩
    rw [List.map_cons, ← hrelationships]
    exact congrArg (· ++ _) hread

/-! ### References with a body -/

/-- What is read of the lines in the body of a reference. -/
theorem readLines_lines (offset : Nat) (rs : List RelationshipSource) :
  ((linesFrom offset (rs.map RelationshipSource.print ++ [[]])).filter
      fun (_, line) => !allBlank line).map
      (fun (offset, line) => Relationship.readLine (name?.map WrittenName.text) offset line)
    = rs.map fun r => .ok (r.relationship name?)
  := by
  induction rs generalizing offset with
  | nil => rfl
  | cons r rs ih =>
    have hblank : allBlank r.print = false := not_allBlank r.trimmed_print r.print_ne_nil
    rw [List.map_cons, List.cons_append, linesFrom, filter_visible, hblank,
      if_neg Bool.false_ne_true, List.map_append, ih]
    exact congrArg (· :: _) (r.readLine_print name? offset r.trimmed_print.trim_eq)

/-- The body of a reference describes the relationships of its lines. -/
theorem relationships_block (offset : Nat) (rs : List RelationshipSource) :
  Block.relationships ⟨header name? .refBlock, [], body rs, offset⟩
    = rs.map fun r => .ok (r.relationship name?)
  := by
  have hn : ∀ line ∈ [] :: rs.map RelationshipSource.print, '\n' ∉ line := by
    refine List.forall_mem_cons.mpr ⟨List.not_mem_nil, fun line hl => ?_⟩
    obtain ⟨r, _, rfl⟩ := List.mem_map.mp hl
    apply r.newline_notMem_print
  have hbody : body rs = ofLines ([] :: rs.map RelationshipSource.print) := by
    rw [ofLines_cons]
    rfl
  have hlines : lines offset (body rs) = (offset, [])
      :: linesFrom (offset + 1) (rs.map RelationshipSource.print ++ [[]]) := by
    rw [lines, hbody, splitWhere_ofLines hn]
    rfl
  have hread : Block.relationships ⟨header name? .refBlock, [], body rs, offset⟩
      = Relationship.readBlock ⟨header name? .refBlock, [], body rs, offset⟩ := rfl
  rw [hread, Relationship.readBlock, hlines, ← readLines_lines name? (offset + 1) rs]
  rfl

/-- The lines of a block of relationships have neither comments nor braces. -/
theorem flat_body (rs : List RelationshipSource) :
  Flat (body rs)
  := by
  have hlines : Flat (ofLines (rs.map RelationshipSource.print)) := by
    apply flat_ofLines
    intro line hl
    obtain ⟨r, _, rfl⟩ := List.mem_map.mp hl
    apply r.flat_print
  apply hlines.chars (by decide : ['\n'].all _)

/-- A reference with a body is one block, without comments. -/
theorem ofText_printBlock (rs : List RelationshipSource) :
  ∃ offset, (Segment.ofText (printBlock name? rs)).filterMap Segment.block?
      = [⟨header name? .refBlock, [], body rs, offset⟩]
    ∧ (Segment.ofText (printBlock name? rs)).filterMap Segment.finding? = []
    ∧ stripComments (printBlock name? rs) = printBlock name? rs
  := by
  have hopening : Flat (opening name? ++ [' ']) := by
    apply (flat_opening name?).append (flat_nil.chars (by decide : [' '].all _))
    rintro ⟨⟩
  have hprint : printBlock name? rs = (opening name? ++ [' ']) ++ '{' :: (body rs ++ ['}']) := by
    rw [List.append_assoc]
    rfl
  obtain ⟨span, hsegments⟩ : ∃ span, Segment.ofText (printBlock name? rs) = [⟨0, span,
      .block ⟨header name? .refBlock, [], body rs, size (opening name? ++ [' ']) + 1⟩⟩] := by
    have hread := read?_block name? (body rs ++ ['}'])
    rw [← List.singleton_append, ← List.append_assoc] at hread
    rw [hprint]
    apply Segment.ofText_block hopening (flat_body rs) _ _ hread
    · rintro ⟨⟩
    · rfl
    · apply List.append_ne_nil_of_right_ne_nil _ (List.cons_ne_nil _ _)
    · obtain ⟨t, ht⟩ := opening_eq name?
      rw [ht]
      rintro c ⟨⟩
      rfl
  refine ⟨size (opening name? ++ [' ']) + 1, ?_, ?_, ?_⟩
  · rw [hsegments]
    rfl
  · rw [hsegments]
    rfl
  · rw [hprint, Segment.stripComments_block hopening (flat_body rs)]

/-- One-line relationships have neither comments nor braces. -/
theorem flat_printShort (rs : List RelationshipSource) :
  Flat (printShort name? rs)
  := by
  apply flat_ofLines
  intro line hl
  obtain ⟨r, _, rfl⟩ := List.mem_map.mp hl
  apply (flat_opening name?).append (r.flat_print.chars (by decide : [':', ' '].all _))
  rintro ⟨⟩

end ReferenceSource

/-! ## Documents -/

/-- Only relationships that cannot be read are problems of references. -/
theorem Block.findingsAfter_references {blocks : List Block}
    (hk : ∀ b ∈ blocks, b.header.kind = .refShort ∨ b.header.kind = .refBlock) :
  findingsAfter false blocks = Finding.failures (blocks.flatMap relationships)
  := by
  induction blocks with
  | nil => rfl
  | cons b blocks ih =>
    obtain ⟨hb, hk⟩ := List.forall_mem_cons.mp hk
    have hbody : b.bodyFindings = Finding.failures b.relationships := by
      rw [bodyFindings]
      rcases hb with hb | hb
      · rw [hb]
      · rw [hb]
    have hproject : b.header.kind ≠ .project := by
      rcases hb with hb | hb
      · rw [hb]
        rintro ⟨⟩
      · rw [hb]
        rintro ⟨⟩
    rw [findingsAfter, if_neg hproject, hbody, ih hk, List.flatMap_cons, Finding.failures,
      Finding.failures, Finding.failures, List.filterMap_append]

/-- Blocks of relationships declare nothing else. -/
theorem Block.ofKind_references {blocks : List Block}
    (hk : ∀ b ∈ blocks, b.header.kind = .refShort ∨ b.header.kind = .refBlock) {kind : BlockKind}
    (hs : kind ≠ .refShort) (hb : kind ≠ .refBlock) :
  ofKind kind blocks = []
  := by
  apply List.filter_eq_nil_iff.mpr
  intro b hm
  rw [decide_eq_true_eq]
  rcases hk b hm with h | h
  · rw [h]
    apply hs.symm
  · rw [h]
    apply hb.symm

/-- References declare their relationships and nothing else. -/
theorem Document.ofBlocks_references (policy : MergePolicy) {blocks : List Block}
    {relationships : List Relationship}
    (hk : ∀ b ∈ blocks, b.header.kind = .refShort ∨ b.header.kind = .refBlock)
    (hr : blocks.flatMap Block.relationships = relationships.map .ok) :
  ofBlocks policy blocks = ({ relationships }, [])
  := by
  have hnone {kind : BlockKind} (hs : kind ≠ .refShort) (hb : kind ≠ .refBlock) :
      Block.ofKind kind blocks = [] := Block.ofKind_references hk hs hb
  have hread : (blocks.flatMap fun b => Finding.successes b.relationships) = relationships := by
    have hall : Finding.successes (blocks.flatMap Block.relationships) = relationships := by
      rw [hr, Finding.successes, List.filterMap_map]
      apply List.filterMap_some
    rw [← hall, Finding.successes, List.filterMap_flatMap]
    rfl
  have hfindings : Block.findingsAfter false blocks = [] := by
    rw [Block.findingsAfter_references hk, hr, Finding.failures, List.filterMap_map]
    apply List.filterMap_eq_nil_iff.mpr fun _ _ => rfl
  simp [ofBlocks, hnone, hread, hfindings, TablePartial.ofBlocksAfter]

/-- Without tables, both sides of every relationship name nothing. -/
theorem Document.assemble_references (relationships : List Relationship) :
  assemble { relationships } = ({ relationships }, relationships.flatMap fun r =>
    [.unplaced (.unresolvedEndpoint r.leftTable), .unplaced (.unresolvedEndpoint r.rightTable)])
  := by
  have hresolve : Relationship.resolve [] = id := rfl
  have hfindings : Relationship.findings [] = fun r =>
      [.unplaced (.unresolvedEndpoint r.leftTable),
        .unplaced (.unresolvedEndpoint r.rightTable)] := rfl
  have hinline : Relationship.inline [] = [] := rfl
  rw [assemble, resolvedRelationships]
  dsimp only
  rw [hresolve, hfindings, hinline, List.map_id, List.map_nil, List.append_nil]

namespace RelationshipSource

/-- The diagnostics of a relationship where there are no tables. -/
def diagnostics (r : RelationshipSource) : List Diagnostic :=
  [r.left.table, r.right.table].map fun n =>
    .unplaced .unresolvedEndpoint (Problem.unresolvedEndpoint n.string).message

end RelationshipSource

/-- A document of references is read as the relationships of its blocks. -/
theorem Report.ofSource_references (policy : MergePolicy) (name? : Option WrittenName)
    (rs : List RelationshipSource) {t : Text} (ht : stripComments t = t)
    (hk : ∀ b ∈ (Segment.ofText t).filterMap Segment.block?,
      b.header.kind = .refShort ∨ b.header.kind = .refBlock)
    (hr : ((Segment.ofText t).filterMap Segment.block?).flatMap Block.relationships
      = rs.map fun r => .ok (r.relationship name?))
    (hf : (Segment.ofText t).filterMap Segment.finding? = []) :
  ofSource policy (String.ofList t)
    = ⟨{ relationships := rs.map (RelationshipSource.relationship name?) },
        rs.flatMap RelationshipSource.diagnostics⟩
  := by
  have hmap : rs.map (fun r => Except.ok (r.relationship name?))
      = (rs.map (RelationshipSource.relationship name?)).map
          fun r => (.ok r : Except Finding _) := by
    rw [List.map_map]
    rfl
  rw [hmap] at hr
  rw [ofSource, String.toList_ofList, ht, Document.ofText, hf,
    Document.ofBlocks_references policy hk hr]
  dsimp only
  rw [Document.assemble_references]
  dsimp only
  have hdiagnostics (index : LineIndex) :
      ((rs.map (RelationshipSource.relationship name?)).flatMap fun r =>
          [Finding.unplaced (.unresolvedEndpoint r.leftTable),
            .unplaced (.unresolvedEndpoint r.rightTable)]).map (Diagnostic.ofFinding index)
        = rs.flatMap RelationshipSource.diagnostics := by
    rw [List.flatMap_map, List.map_flatMap]
    rfl
  have hline : ∀ d ∈ rs.flatMap RelationshipSource.diagnostics, d.line = 0 := by
    intro d hd
    obtain ⟨r, _, hd⟩ := List.mem_flatMap.mp hd
    obtain ⟨n, _, rfl⟩ := List.mem_map.mp hd
    rfl
  rw [List.append_nil, List.nil_append, hdiagnostics, Diagnostic.sort_unplaced hline]

/-- A list of relationships is read back from its text, in either form.  As there are no tables,
both sides of each relationship are reported, in order. -/
theorem relationships_survive_printing (policy : MergePolicy) (name? : Option WrittenName)
    (rs : List RelationshipSource) :
  Report.ofSource policy (String.ofList (ReferenceSource.printShort name? rs))
      = ⟨{ relationships := rs.map (RelationshipSource.relationship name?) },
          rs.flatMap RelationshipSource.diagnostics⟩
    ∧ Report.ofSource policy (String.ofList (ReferenceSource.printBlock name? rs))
      = ⟨{ relationships := rs.map (RelationshipSource.relationship name?) },
          rs.flatMap RelationshipSource.diagnostics⟩
  := by
  constructor
  · obtain ⟨hk, hr, hf⟩ := ReferenceSource.split_printShort name?
      (.ofText (ReferenceSource.printShort name? rs)) 0
      (size (ReferenceSource.printShort name? rs)) rs
    apply Report.ofSource_references policy name? rs
    · exact (ReferenceSource.flat_printShort name? rs).stripComments_eq
    · exact fun b hb => .inl (hk b hb)
    · exact hr
    · exact hf
  · obtain ⟨offset, hblock, hf, hstrip⟩ := ReferenceSource.ofText_printBlock name? rs
    apply Report.ofSource_references policy name? rs hstrip
    · rw [hblock]
      exact List.forall_mem_singleton.mpr (.inr rfl)
    · rw [hblock, List.flatMap_singleton]
      apply ReferenceSource.relationships_block
    · exact hf

end DatabaseMarkup
