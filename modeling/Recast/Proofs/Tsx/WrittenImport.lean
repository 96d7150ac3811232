import Recast.Proofs.Tsx.ImportStatement

/-!
# Import statements written out

An import statement whose names are words and whose module name has a value is read as that one
statement: every name is found where it was written, and nothing else.
-/

set_option autoImplicit false

namespace Recast.Tsx

open Recast.Literal
open Recast.Text

/-! ## Clauses -/

/-- What an import clause binds besides a default. -/
inductive Group where
  | whole (name : String)
  | listed (first : String) (more : List String)

/-- What an import clause binds. -/
inductive Clause where
  | default (name : String)
  | group (g : Group)
  | both (name : String) (g : Group)

def Group.names : Group → List String
  | whole name => [name]
  | listed first more => first :: more

def Clause.names : Clause → List String
  | default name => [name]
  | group g => g.names
  | both name g => name :: g.names

def AllWords (names : List String) : Prop := ∀ w ∈ names, isWord w.toList = true

def separatedNames (more : List String) : List Char := more.flatMap fun w => ',' :: ' ' :: w.toList

def Group.chars : Group → List Char
  | whole name => '*' :: ' ' :: 'a' :: 's' :: ' ' :: name.toList
  | listed first more => '{' :: ' ' :: (first.toList ++ (separatedNames more ++ [' ', '}']))

def Clause.chars : Clause → List Char
  | default name => name.toList
  | group g => g.chars
  | both name g => name.toList ++ ',' :: ' ' :: g.chars

def nameNode (w : String) : Tree := .mk .identifier .none w []

def specifierNode (w : String) : Tree := .mk .importSpecifier .none w [(nameNode w).withRole .name]

def Group.node (g : Group) : Tree :=
  match g with
  | whole name => .mk .namespaceImport .none (String.ofList g.chars) [nameNode name]
  | listed first more => .mk .namedImports .none (String.ofList g.chars) ((first :: more).map specifierNode)

def Clause.node (c : Clause) : Tree :=
  .mk .importClause .none (String.ofList c.chars) <| match c with
    | default name => [nameNode name]
    | group g => [g.node]
    | both name g => [nameNode name, g.node]

/-! ## Reading names -/

section

variable {cs rest : List Char} {w : String}

theorem exists_cons_of_isWord (letters : isWord w.toList = true) :
    ∃ c cs, w.toList = c :: cs ∧ isWordChar c = true := by
  cases chars : w.toList with
  | nil =>
    rw [chars] at letters
    cases letters
  | cons c cs =>
    rw [chars] at letters
    simp only [isWord, Bool.and_eq_true] at letters
    exact ⟨c, cs, rfl, letters.1.1⟩

theorem opens_word (letters : isWord w.toList = true) (rest : List Char) : opens (w.toList ++ rest) = true := by
  obtain ⟨c, cs, chars, letter⟩ := exists_cons_of_isWord letters
  rw [chars]
  exact opens_of_isWordChar letter _

theorem reads_bindingName (skips : Reads skip cs () (w.toList ++ rest)) (letters : isWord w.toList = true)
    (ends : endsWord rest = true) : Reads bindingName cs (nameNode w) rest := by
  have text := reads_word (reads_skip (opens_word letters rest)) letters ends
  have read := Reads.leaf (k := .identifier) skips text
  rwa [String.ofList_toList] at read

/-- Behind a listed name stands a comma, or a space and the closing brace. -/
def ClosesName (rest : List Char) : Prop := (∃ more, rest = ',' :: more) ∨ ∃ more, rest = ' ' :: '}' :: more

theorem ClosesName.mark (closes : ClosesName rest) : endsWord rest = true ∧ ∃ body, Reads skip rest () body ∧
    isWordStart body = false ∧ Reads (sym "," <|> sym "\x7d") rest () (body.drop 1) := by
  rcases closes with ⟨more, rfl⟩ | ⟨more, rfl⟩
  · exact ⟨rfl, _, reads_skip rfl, rfl, .orElse (reads_sym (reads_skip rfl))⟩
  · have skips : Reads skip (' ' :: '}' :: more) () ('}' :: more) := reads_skip_space rfl
    exact ⟨rfl, _, skips, rfl, .orElse_right (fails_sym skips rfl) (reads_sym skips)⟩

theorem reads_importSpecifier (skips : Reads skip cs () (w.toList ++ rest)) (letters : isWord w.toList = true)
    (closes : ClosesName rest) : Reads importSpecifier cs (specifierNode w) rest := by
  obtain ⟨ends, body, skipped, noWord, mark⟩ := closes.mark
  have name := reads_bindingName (reads_skip (opens_word letters rest)) letters ends
  have read : Reads importSpecifier cs (.mk .importSpecifier .none (String.ofList w.toList)
      [(nameNode w).withRole .name]) rest := by
    -- A name with an alias would have a further word here.
    refine .node skips (.orElse_right ?_ (.orElse ?_))
    · exact .bind (.later (.orElse name) (.bind (.bind (fails_word skipped noWord))))
    · exact .bind (.bind name (.pure _ _)) (.bind (.lookAhead mark) (.pure _ _))
  rwa [String.ofList_toList] at read

end

theorem closesName_separatedNames (more : List String) (rest : List Char) :
    ClosesName (separatedNames more ++ ' ' :: '}' :: rest) := by
  cases more with
  | nil => exact .inr ⟨rest, rfl⟩
  | cons w more => exact .inl ⟨_, rfl⟩

theorem readsAll_separatedNames {more : List String} (words : AllWords more)
    (rest : List Char) :
    ReadsAll (do sym ","; importSpecifier) (separatedNames more ++ ' ' :: '}' :: rest)
      (more.map specifierNode) (' ' :: '}' :: rest) := by
  induction more with
  | nil => exact .stop (.bind (fails_sym (reads_skip_space rfl) rfl))
  | cons w more ih =>
    have here := words w (by simp)
    have there := ih fun v member => words v (by simp [member])
    have text : separatedNames (w :: more) ++ ' ' :: '}' :: rest =
        ',' :: ' ' :: (w.toList ++ (separatedNames more ++ ' ' :: '}' :: rest)) := by
      simp [separatedNames]
    rw [text]
    refine .step (.bind (reads_sym (reads_skip rfl)) ?_) ?_ there
    · exact reads_importSpecifier (reads_skip_space (opens_word here _)) here (closesName_separatedNames _ _)
    · simp only [List.length_cons, List.length_append]
      omega

/-! ## Reading clauses -/

section

variable {cs rest : List Char}

theorem opens_group (g : Group) (rest : List Char) : opens (g.chars ++ rest) = true := by
  cases g <;> rfl

theorem reads_group {g : Group} (words : AllWords g.names)
    (skips : Reads skip cs () (g.chars ++ rest)) (ends : endsWord rest = true) :
    Reads importGroup cs g.node rest := by
  have start := reads_skip (opens_group g rest)
  cases g with
  | whole name =>
    have letters := words name (by simp [Group.names])
    refine .orElse (.node skips (.bind (reads_sym start) ?_))
    have joined : Reads (keyword "as") (' ' :: 'a' :: 's' :: ' ' :: (name.toList ++ rest)) ()
        (' ' :: (name.toList ++ rest)) := reads_keyword (reads_skip_space rfl) rfl rfl
    have bound := reads_bindingName (reads_skip_space (opens_word letters rest)) letters ends
    exact .bind joined (.bind bound (.pure _ _))
  | listed first more =>
    have here := words first (by simp [Group.names])
    have others : AllWords more := fun w member => words w (by simp [Group.names, member])
    have there := readsAll_separatedNames others rest
    have text : (Group.listed first more).chars ++ rest =
        '{' :: ' ' :: (first.toList ++ (separatedNames more ++ ' ' :: '}' :: rest)) := by
      simp [Group.chars]
    have item : Reads importSpecifier (' ' :: (first.toList ++ (separatedNames more ++ ' ' :: '}' :: rest)))
        (specifierNode first) (separatedNames more ++ ' ' :: '}' :: rest) :=
      reads_importSpecifier (reads_skip_space (opens_word here _)) here (closesName_separatedNames _ _)
    have closing : Reads skip (' ' :: '}' :: rest) () ('}' :: rest) := reads_skip_space rfl
    have listed : Reads (commaList importSpecifier)
        (' ' :: (first.toList ++ (separatedNames more ++ ' ' :: '}' :: rest)))
        ((first :: more).map specifierNode) (' ' :: '}' :: rest) :=
      .bind (.optional item) (.bind there.many (.bind (.optional_none (fails_sym closing rfl)) (.pure _ _)))
    refine .orElse_right (.node skips (.bind (fails_sym start (by rw [text]; rfl)))) (.node skips ?_)
    rw [text]
    exact .bind (reads_sym (reads_skip rfl)) (.bind listed (.bind (reads_sym closing) (.pure _ _)))

theorem after?_word {w : String} (letters : isWord w.toList = true) {x : Char} (mark : isWordChar x = false)
    (xs rest : List Char) : after? (x :: xs) (w.toList ++ rest) = none := by
  obtain ⟨c, cs, chars, letter⟩ := exists_cons_of_isWord letters
  rw [chars]
  refine after?_eq_none_of_head (fun same => ?_) xs _
  rw [same, letter] at mark
  cases mark

theorem fails_group {w : String} (letters : isWord w.toList = true)
    (skips : Reads skip cs () (w.toList ++ rest)) : Fails importGroup cs := by
  have start := reads_skip (opens_word letters rest)
  refine .orElse (.node skips (.bind (fails_sym start ?_))) (.node skips (.bind (fails_sym start ?_)))
  · exact after?_word letters rfl _ _
  · exact after?_word letters rfl _ _

theorem reads_default {name : String} (letters : isWord name.toList = true)
    (skips : Reads skip cs () (name.toList ++ rest)) (ends : endsWord rest = true)
    (single : Fails (sym ",") rest) : Reads importClause cs (Clause.default name).node rest := by
  have start := reads_skip (opens_word letters rest)
  refine .node skips (.orElse_right (.bind (fails_group letters start)) ?_)
  exact .bind (reads_bindingName start letters ends) (.bind (.optional_none (.bind single)) (.pure _ _))

/-- Behind the clause stands the word that introduces the module. -/
theorem reads_importClause {c : Clause} (words : AllWords c.names)
    (skips : Reads skip cs () (c.chars ++ (" from".toList ++ rest))) :
    Reads importClause cs c.node (" from".toList ++ rest) := by
  cases c with
  | default name =>
    have next : Reads skip (" from".toList ++ rest) () ("from".toList ++ rest) := reads_skip_space rfl
    exact reads_default (words name (by simp [Clause.names])) skips rfl (fails_sym next rfl)
  | group g =>
    exact .node skips (.orElse (.bind (reads_group words (reads_skip (opens_group g _)) rfl) (.pure _ _)))
  | both name g =>
    refine .node skips ?_
    have letters := words name (by simp [Clause.names])
    have inside : AllWords g.names := fun w member => words w (by simp [Clause.names, member])
    have text : (Clause.both name g).chars ++ (" from".toList ++ rest) =
        name.toList ++ (',' :: ' ' :: (g.chars ++ (" from".toList ++ rest))) := by simp [Clause.chars]
    rw [text]
    have start := reads_skip (opens_word letters (',' :: ' ' :: (g.chars ++ (" from".toList ++ rest))))
    have more : Reads (do sym ","; importGroup) (',' :: ' ' :: (g.chars ++ (" from".toList ++ rest))) g.node
        (" from".toList ++ rest) :=
      .bind (reads_sym (reads_skip rfl)) (reads_group inside (reads_skip_space (opens_group g _)) rfl)
    refine .orElse_right (.bind (fails_group letters start)) ?_
    exact .bind (reads_bindingName start letters rfl) (.bind (.optional more) (.pure _ _))

end

/-! ## Reading statements -/

/-- The clause, if any, and the module name with its quotes. -/
structure Written where
  typeOnly : Bool
  clause : Option Clause
  quote : Char
  module : String

namespace Written

def source (i : Written) : List Char := delimited i.quote i.module.toList

def sourceNode (i : Written) : Tree := .mk .stringLiteral .source (String.ofList i.source) []

/-- The clause with the word behind it. -/
def front (i : Written) : List Char :=
  match i.clause with
  | none => []
  | some c => (if i.typeOnly then "type ".toList else []) ++ (c.chars ++ " from ".toList)

theorem front_some {i : Written} {c : Clause} (has : i.clause = some c) :
    i.front = (if i.typeOnly then "type ".toList else []) ++ (c.chars ++ " from ".toList) := by
  unfold front
  rw [has]

def chars (i : Written) : List Char := "import".toList ++ ' ' :: (i.front ++ (i.source ++ [';']))

def node (i : Written) : Tree :=
  .mk .importStatement .none (String.ofList i.chars) <| match i.clause with
    | none => [i.sourceNode]
    | some c => (if i.typeOnly then [.mk .token .none "type" []] else []) ++ [c.node, i.sourceNode]

/-- The names are words, and the module name is a string that has a value. -/
structure IsSound (i : Written) : Prop where
  words : ∀ c ∈ i.clause, AllWords c.names
  quoted : i.quote = '"' ∨ i.quote = '\''
  value : ∃ v, units? i.quote i.module.toList = some v

end Written

section

variable {i : Written}

theorem reads_moduleSource (sound : i.IsSound) {cs : List Char} (skips : Reads skip cs () (i.source ++ [';'])) :
    Reads moduleSource cs i.sourceNode [';'] := by
  obtain ⟨v, value⟩ := sound.value
  exact .bind skips (.bind (reads_stringLiteral sound.quoted value [';']) (.pure _ _))

theorem opens_source (sound : i.IsSound) : opens (i.source ++ [';']) = true := by
  rw [Written.source, delimited]
  rcases sound.quoted with quote | quote <;> rw [quote] <;> rfl

theorem reads_importFrom (sound : i.IsSound) {c : Clause} (has : i.clause = some c) {cs : List Char}
    (skips : Reads skip cs () (c.chars ++ (" from ".toList ++ (i.source ++ [';'])))) :
    Reads importFrom cs [c.node, i.sourceNode] [';'] := by
  have clause : Reads importClause cs c.node (" from".toList ++ ' ' :: (i.source ++ [';'])) :=
    reads_importClause (sound.words c has) skips
  have joined : Reads (keyword "from") (" from".toList ++ ' ' :: (i.source ++ [';'])) ()
      (' ' :: (i.source ++ [';'])) := reads_keyword (reads_skip_space rfl) rfl rfl
  have source := reads_moduleSource sound (reads_skip_space (opens_source sound))
  exact .bind clause (.bind joined (.bind source (.pure _ _)))

/-- A clause starts with a word, a star or a brace. -/
theorem Clause.start {c : Clause} (words : AllWords c.names) :
    ∃ x xs, c.chars = x :: xs ∧ (isWordChar x = true ∨ x = '*' ∨ x = '{') := by
  have named : ∀ w ∈ c.names, ∀ back, ∃ x xs, w.toList ++ back = x :: xs ∧
      (isWordChar x = true ∨ x = '*' ∨ x = '{') := by
    intro w member back
    obtain ⟨x, xs, chars, letter⟩ := exists_cons_of_isWord (words w member)
    exact ⟨x, xs ++ back, by rw [chars]; rfl, .inl letter⟩
  have grouped : ∀ g : Group, ∃ x xs, g.chars = x :: xs ∧ (isWordChar x = true ∨ x = '*' ∨ x = '{') := by
    intro g
    cases g with
    | whole name => exact ⟨'*', _, rfl, .inr (.inl rfl)⟩
    | listed first more => exact ⟨'{', _, rfl, .inr (.inr rfl)⟩
  cases c with
  | default name =>
    have first := named name (by simp [Clause.names]) []
    rwa [List.append_nil] at first
  | group g => exact grouped g
  | both name g => exact named name (by simp [Clause.names]) _

/-- A clause starts neither with space nor with a comma or a quote. -/
theorem Clause.opens {c : Clause} (words : AllWords c.names) (rest : List Char) :
    Tsx.opens (c.chars ++ rest) = true ∧ after? ",".toList (c.chars ++ rest) = none ∧
      (c.chars ++ rest).head?.any (fun x => x == '"' || x == '\'') = false := by
  obtain ⟨x, xs, chars, kind⟩ := Clause.start words
  rw [chars]
  rcases kind with letter | rfl | rfl
  · have apart : ∀ y, isWordChar y = false → x ≠ y := by
      rintro y other rfl
      rw [letter] at other
      cases other
    refine ⟨opens_of_isWordChar letter _, after?_eq_none_of_head (apart ',' rfl).symm _ _, ?_⟩
    simp [apart '"' rfl, apart '\'' rfl]
  · exact ⟨rfl, rfl, rfl⟩
  · exact ⟨rfl, rfl, rfl⟩

theorem fails_moduleSource {cs body : List Char} (skips : Reads skip cs () body) (done : opens body = true)
    (noQuote : body.head?.any (fun x => x == '"' || x == '\'') = false) : Fails moduleSource cs :=
  .later skips (.bind (fails_stringLiteral (reads_skip done) noQuote))

/-- No module name stands behind the first word of a clause. -/
theorem fails_from {c : Clause} (words : AllWords c.names) (rest : List Char) {β : Type}
    (f : Tree → Reader β) :
    Fails (do keyword "from"; f (← moduleSource)) (' ' :: (c.chars ++ (" from".toList ++ rest))) := by
  -- The word itself may be the one that introduces a module; then no quote follows it.
  have named : ∀ w ∈ c.names, ∀ back body, endsWord back = true → Reads skip back () body → opens body = true →
      body.head?.any (fun x => x == '"' || x == '\'') = false →
      Fails (do keyword "from"; f (← moduleSource)) (' ' :: (w.toList ++ back)) := by
    intro w member back body ends skipped done noQuote
    have letters := words w member
    have skips := reads_skip_space (opens_word letters back)
    by_cases same : w = "from"
    · subst same
      exact .later (reads_keyword skips letters ends) (.bind (fails_moduleSource skipped done noQuote))
    · have read := reads_word skips letters ends
      rw [String.ofList_toList] at read
      exact .bind (fails_keyword read same)
  cases c with
  | default name =>
    exact named name (by simp [Clause.names]) _ ("from".toList ++ rest) rfl (reads_skip_space rfl) rfl rfl
  | group g =>
    have noWord : isWordStart (g.chars ++ (" from".toList ++ rest)) = false := by cases g <;> rfl
    exact .bind (.bind (fails_word (reads_skip_space (opens_group g _)) noWord))
  | both name g =>
    have text : (Clause.both name g).chars ++ (" from".toList ++ rest) =
        name.toList ++ (',' :: ' ' :: (g.chars ++ (" from".toList ++ rest))) := by simp [Clause.chars]
    rw [text]
    exact named name (by simp [Clause.names]) _ _ rfl (reads_skip rfl) rfl rfl

/-- The word that marks a type-only statement is not taken for its default. -/
theorem fails_importFrom {c : Clause} (words : AllWords c.names) {cs rest : List Char}
    (skips : Reads skip cs () ("type ".toList ++ (c.chars ++ (" from".toList ++ rest)))) : Fails importFrom cs := by
  have next := reads_skip_space (Clause.opens words (" from".toList ++ rest)).1
  have clause : Reads importClause cs (Clause.default "type").node (' ' :: (c.chars ++ (" from".toList ++ rest))) :=
    reads_default rfl skips rfl (fails_sym next (Clause.opens words _).2.1)
  exact .later clause (fails_from words rest _)

theorem reads_importContent (sound : i.IsSound) (rules : Rules) :
    Reads (importContent rules) (' ' :: (i.front ++ (i.source ++ [';']))) i.node.children [';'] := by
  cases has : i.clause with
  | none =>
    have read := reads_moduleSource sound (reads_skip_space (opens_source sound))
    simp only [Written.front, Written.node, has]
    exact .orElse (.bind read (.pure _ _))
  | some c =>
    have words := sound.words c has
    have first := Clause.opens words (" from ".toList ++ (i.source ++ [';']))
    cases kind : i.typeOnly with
    | false =>
      have text : i.front ++ (i.source ++ [';']) = c.chars ++ (" from ".toList ++ (i.source ++ [';'])) := by
        simp [Written.front_some has, kind]
      have skips := reads_skip_space first.1
      simp only [text, Written.node, has, kind]
      refine .orElse_right (.bind (fails_moduleSource skips first.1 first.2.2)) (.orElse ?_)
      exact reads_importFrom sound has skips
    | true =>
      have text : i.front ++ (i.source ++ [';']) =
          "type ".toList ++ (c.chars ++ (" from ".toList ++ (i.source ++ [';']))) := by
        simp [Written.front_some has, kind]
      have skips : Reads skip (' ' :: ("type ".toList ++ (c.chars ++ (" from ".toList ++ (i.source ++ [';']))))) ()
          ("type ".toList ++ (c.chars ++ (" from ".toList ++ (i.source ++ [';'])))) := reads_skip_space rfl
      have token : Reads importKind
          (' ' :: ("type ".toList ++ (c.chars ++ (" from ".toList ++ (i.source ++ [';'])))))
          (.mk .token .none "type" []) (' ' :: (c.chars ++ (" from ".toList ++ (i.source ++ [';'])))) :=
        .leaf skips (reads_oneOfKeywords (reads_word (reads_skip rfl) rfl rfl) rfl)
      simp only [text, Written.node, has, kind]
      refine .orElse_right (.bind (fails_moduleSource skips rfl rfl)) ?_
      refine .orElse_right (fails_importFrom words skips) (.orElse (.bind token ?_))
      exact .bind (reads_importFrom sound has (reads_skip_space first.1)) (.pure _ _)

theorem reads_importStatement (sound : i.IsSound) (rules : Rules) :
    Reads (importStatement rules) i.chars i.node [] := by
  have start : Reads skip i.chars () i.chars := reads_skip rfl
  have opening : Reads (keyword "import") i.chars () (' ' :: (i.front ++ (i.source ++ [';']))) :=
    reads_keyword start rfl rfl
  have ending : Reads skip [';'] () [';'] := reads_skip rfl
  have last : Reads (do
      let attributes ← optional (importAttributes rules)
      semicolon
      return i.node.children ++ attributes) [';'] i.node.children [] := by
    refine .bind (.optional_none (.bind (.bind (fails_word ending rfl)))) ?_
    rw [List.append_nil]
    exact .bind (.orElse (reads_sym ending)) (.pure _ _)
  exact .node_end start (.bind opening (.bind (reads_importContent sound rules) last))

theorem reads_statement (sound : i.IsSound) (n : Nat) :
    Reads (rulesUpTo (n + 1) .statement) i.chars i.node [] := by
  have start : Reads skip i.chars () i.chars := reads_skip rfl
  have first : Reads (lookAhead word) i.chars "import" i.chars := .lookAhead (reads_word start rfl rfl)
  have control : Fails (controlStatement (rulesUpTo n) "import") i.chars := rfl
  refine .bind (reads_ahead start) ?_
  show Reads (wordStatement (rulesUpTo n)) i.chars i.node []
  exact .bind first (.orElse_right control (.orElse (reads_importStatement sound _)))

theorem reads_htmlComments {cs body : List Char} (skips : Reads skip cs () body)
    (opens : after? "<!--".toList body = none) (closes : after? "-->".toList body = none) :
    Reads htmlComments cs () cs := by
  have fails : Fails htmlComment cs := .later skips (.bind (.orElse (fails_chars opens) (fails_chars closes)))
  exact .bind (ReadsAll.stop fails).many (.pure _ _)

/-- A statement that is written out is all that is read from it. -/
theorem parse?_written (sound : i.IsSound) :
    parse? (String.ofList i.chars) = some (.mk .program .none (String.ofList i.chars) [i.node]) := by
  have start : Reads skip i.chars () i.chars := reads_skip rfl
  have done : Reads skip [] () [] := reads_skip rfl
  have statements : ∀ n, Reads (statementList (rulesUpTo (n + 1))) i.chars [i.node] [] := by
    intro n
    have stop : Fails (rulesUpTo (n + 1) .statement) [] := .later (reads_ahead done) rfl
    have some : ([] : List Char).length < i.chars.length := List.length_pos_iff.mpr (List.cons_ne_nil 'i' _)
    have one : Reads (do
        let s ← rulesUpTo (n + 1) .statement
        htmlComments
        return s) i.chars i.node [] :=
      .bind (reads_statement sound n) (.bind (reads_htmlComments done rfl rfl) (.pure _ _))
    exact .bind (reads_htmlComments start rfl rfl) (ReadsAll.step one some (.stop stop.bind)).many
  have noScript : after? "#!".toList i.chars = none := rfl
  have whole : ∀ n, Reads (program (rulesUpTo (n + 1))) i.chars
      (.mk .program .none (String.ofList i.chars) [i.node]) [] := by
    refine fun n => .node_end start (.bind (.optional_none (.bind (fails_chars noScript))) ?_)
    have last : Reads (ensure (Cursor.before []).rest.isEmpty) [] () [] := rfl
    exact .bind (statements n) (.bind done (.bind (reads_get _) (.bind last (.pure _ _))))
  have text : Cursor.ofText (String.ofList i.chars) = .before i.chars := by
    rw [Cursor.eq_before (Cursor.ofText _)]
    exact congrArg Cursor.before String.toList_ofList
  rw [parse?, text, whole]
  rfl

end

end Recast.Tsx
