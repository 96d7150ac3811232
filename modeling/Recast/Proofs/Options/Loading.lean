import Recast.FileTree
import Recast.Options.Config

/-!
# How loading options ends

Loading gives options that the generators support, or a report, or breaks down. It breaks down in three
cases only: a section of a shared file that is neither a table nor a list of pairs, a time limit that is a
whole number beyond the range of floating point numbers, and a version that is infinite. All other values,
of any kind and under any key, are read or reported. The file that a search settles on is the file that is
loaded, so the same holds of a search.
-/

set_option autoImplicit false

namespace Recast

namespace Options

/-! ## Checked options -/

/-- Options for versions and scripts that the generators know. -/
def Supported (o : Options) : Prop :=
  (o.svelte.version = 4 ∨ o.svelte.version = 5) ∧ o.vue.scriptSetup = true

/-- The kinds of reports about configuration. -/
def reportKinds : List ErrorKind := [.config, .malformedConfig, .unsupportedTarget]

/-- How an attempt to load options ends, where `breaks` says whether it breaks down. -/
def Ends (breaks : Prop) : Except Failure Options → Prop
  | .ok o => o.Supported ∧ ¬ breaks
  | .error (.reported r) => r.kind ∈ reportKinds ∧ ¬ breaks
  | .error (.broken _) => breaks

theorem Ends.congr {breaks breaks' : Prop} (same : breaks ↔ breaks') {result : Except Failure Options}
    (ends : Ends breaks result) : Ends breaks' result := by
  rwa [propext same] at ends

theorem ends_reporting {result : Except Report Options} {breaks : Prop} (intact : ¬ breaks)
    (supported : ∀ o, result = .ok o → o.Supported) (listed : ∀ r, result = .error r → r.kind ∈ reportKinds) :
    Ends breaks (reporting result) := by
  cases result with
  | ok o => exact ⟨supported o rfl, intact⟩
  | error r => exact ⟨listed r rfl, intact⟩

theorem supported_of_check {o o' : Options} (checked : o.check = .ok o') : o'.Supported := by
  rw [check] at checked
  split at checked
  · cases checked
  · rename_i version
    split at checked
    · cases checked
    · split at checked
      · cases checked
      · rename_i setup
        cases checked
        exact ⟨by omega, by simpa using setup⟩

theorem kind_of_check {o : Options} {r : Report} (refused : o.check = .error r) : r.kind ∈ reportKinds := by
  rw [check] at refused
  split at refused
  · cases refused
    exact List.mem_cons_self
  · split at refused
    · cases refused
      exact List.mem_cons_self
    · split at refused
      · cases refused
        exact List.mem_cons_self
      · cases refused

theorem kind_of_parse {s : String} {r : Report} (refused : Target.parse s = .error r) :
    r.kind ∈ reportKinds := by
  rw [Target.parse] at refused
  split at refused
  · cases refused
  · cases refused
  · cases refused
    simp [reportKinds]

/-! ## Tables -/

/-- A time limit that no floating point number reaches. -/
def LimitBeyond (data : Assoc Value) : Prop :=
  ∃ n, data.get? "format_timeout" = some (.int n) ∧ (Float.ofInt n).isInf = true

/-- A time limit that is a number, or none at all. -/
def LimitRead (data : Assoc Value) : Prop :=
  ∀ v, data.get? "format_timeout" = some v → ∃ x, v.toFloat = .ok x

/-- A version that is an infinite number. -/
def VersionInfinite (svelte : Assoc Value) : Prop :=
  ∃ x, svelte.get? "version" = some (.float x) ∧ Number.truncate? x = none ∧ x.isNaN = false

/-- A table of known keys in which a number is too large to be converted. The time limit is looked at
before the version. -/
def Overflows (data : Assoc Value) : Prop :=
  unknownKeys data = [] ∧ ∃ svelte vue, subtable? data "svelte" = some svelte ∧ subtable? data "vue" = some vue ∧
    (LimitBeyond data ∨ LimitRead data ∧ VersionInfinite svelte)

theorem toFloat_outOfRange_iff {v : Value} :
    v.toFloat = .error .outOfRange ↔ ∃ n, v = .int n ∧ (Float.ofInt n).isInf = true := by
  cases v with
  | int n => cases large : (Float.ofInt n).isInf <;> simp [Value.toFloat, large]
  | text s => cases read : Number.readFloat? s <;> simp [Value.toFloat, read]
  | _ => simp [Value.toFloat]

theorem toInt_outOfRange_iff {v : Value} :
    v.toInt = .error .outOfRange ↔ ∃ x, v = .float x ∧ Number.truncate? x = none ∧ x.isNaN = false := by
  cases v with
  | float x =>
    cases whole : Number.truncate? x with
    | some n => simp [Value.toInt, whole]
    | none => cases x.isNaN <;> simp [Value.toInt, whole]
  | text s => cases read : Number.readInt? s <;> simp [Value.toInt, read]
  | _ => simp [Value.toInt]

theorem limitBeyond_iff (data : Assoc Value) :
    LimitBeyond data ↔ ((data.get? "format_timeout").getD (.float 10.0)).toFloat = .error .outOfRange := by
  rw [toFloat_outOfRange_iff, LimitBeyond]
  cases data.get? "format_timeout" <;> simp

theorem limitRead_iff (data : Assoc Value) :
    LimitRead data ↔ ∃ x, ((data.get? "format_timeout").getD (.float 10.0)).toFloat = .ok x := by
  rw [LimitRead]
  cases data.get? "format_timeout" <;> simp [Value.toFloat]

theorem versionInfinite_iff (svelte : Assoc Value) :
    VersionInfinite svelte ↔ ((svelte.get? "version").getD (.int 5)).toInt = .error .outOfRange := by
  rw [toInt_outOfRange_iff, VersionInfinite]
  cases svelte.get? "version" <;> simp

/-- A number that was read is handed on. One that is too large breaks the reading down, and anything else
is reported. -/
theorem ends_number {α : Type} {source : Option String} {result : Except NumberProblem α}
    {next : α → Except Failure Options} {breaks : Prop} (large : result = .error .outOfRange → breaks)
    (other : (∃ message, result = .error (.unreadable message)) → ¬ breaks)
    (read : ∀ a, result = .ok a → Ends breaks (next a)) : Ends breaks (number source result >>= next) := by
  cases result with
  | ok a => exact read a rfl
  | error problem =>
    cases problem with
    | outOfRange => exact large rfl
    | unreadable message => exact ⟨List.mem_cons_self, other ⟨message, rfl⟩⟩

theorem ends_throw {breaks : Prop} (intact : ¬ breaks) (source : Option String) (message : String) :
    Ends breaks (throw (refuse source message)) := ⟨List.mem_cons_self, intact⟩

/-- Reading a table breaks down exactly where a number overflows. -/
theorem ends_ofTable (data : Assoc Value) (source : Option String) :
    Ends (Overflows data) (ofTable data source) := by
  rw [ofTable]
  by_cases known : unknownKeys data = []
  · simp only [known, List.isEmpty_nil, Bool.not_true, Bool.false_eq_true, if_false]
    split
    · rename_i svelte vue svelteFound vueFound
      have overflows : Overflows data ↔ LimitBeyond data ∨ LimitRead data ∧ VersionInfinite svelte := by
        simp [Overflows, known, svelteFound, vueFound]
      rw [limitBeyond_iff, limitRead_iff, versionInfinite_iff] at overflows
      refine ends_number (fun large => overflows.mpr (.inl large)) ?_ fun limit limitRead => ?_
      · rintro ⟨message, unread⟩
        simp [overflows, unread]
      · refine ends_number (fun large => overflows.mpr (.inr ⟨⟨limit, limitRead⟩, large⟩)) ?_
          fun version versionRead => ?_
        · rintro ⟨message, unread⟩
          simp [overflows, limitRead, unread]
        · have intact : ¬ Overflows data := by simp [overflows, limitRead, versionRead]
          cases target : ((data.get? "target").map fun v => Target.parse v.display).getD (.ok .svelte) with
          | error r =>
            refine ⟨?_, intact⟩
            cases given : data.get? "target" with
            | none => simp [given] at target
            | some v => exact kind_of_parse (by simpa [given] using target)
          | ok target =>
            exact ends_reporting intact (fun _ => supported_of_check) fun _ => kind_of_check
    · rename_i missing
      refine ends_throw ?_ source _
      rintro ⟨-, svelte, vue, svelteFound, vueFound, -⟩
      exact missing svelte vue svelteFound vueFound
  · rw [if_pos (by simpa using known)]
    exact ends_throw (fun overflows => known overflows.1) source _

end Options

namespace Config

/-! ## Sections -/

/-- What stands for an entry in a list: a pair of a text and a value, two characters, or a table of two. -/
inductive IsEntry : Value → Prop
  | pair (key : String) (v : Value) : IsEntry (.list [.text key, v])
  | text {s : String} (a b : Char) (two : s.toList = [a, b]) : IsEntry (.text s)
  | table (a b : String × Value) : IsEntry (.table [a, b])

/-- A table, or what is taken for one. -/
inductive HasEntries : Value → Prop
  | table (entries : List (String × Value)) : HasEntries (.table entries)
  | list {items : List Value} (entries : ∀ item ∈ items, IsEntry item) : HasEntries (.list items)
  | empty : HasEntries (.text "")

theorem isEntry_iff (v : Value) : IsEntry v ↔ ∃ entry, (asEntry v >>= withTextKey) = .ok entry := by
  constructor
  · rintro (⟨key, v⟩ | ⟨a, b, two⟩ | ⟨⟨a, v⟩, ⟨b, w⟩⟩)
    · exact ⟨(key, v), rfl⟩
    · refine ⟨(a.toString, .text b.toString), ?_⟩
      rw [asEntry, asPair, two]
      rfl
    · exact ⟨(a, .text b), rfl⟩
  · rintro ⟨entry, read⟩
    rw [asEntry] at read
    cases v with
    | list items =>
      rcases items with _ | ⟨key, _ | ⟨v, _ | _⟩⟩
      · cases read
      · cases read
      · cases key with
        | text key => exact .pair key v
        | _ => cases read
      · cases read
    | text s =>
      rw [asPair] at read
      split at read
      · rename_i a b two
        exact .text a b two
      · cases read
    | table entries =>
      rcases entries with _ | ⟨a, _ | ⟨b, _ | _⟩⟩
      · cases read
      · cases read
      · exact .table a b
      · cases read
    | _ => cases read

/-- Two readings one after the other succeed on a list exactly if they do on each of its items. -/
theorem exists_mapM_mapM {α β γ : Type} {f : α → Except Breakdown β} {g : β → Except Breakdown γ} (list : List α) :
    (∃ read, (list.mapM f >>= fun items => items.mapM g) = .ok read) ↔
      ∀ a ∈ list, ∃ c, (f a >>= g) = .ok c := by
  induction list with
  | nil => simp [pure, Except.pure, bind, Except.bind]
  | cons a list ih =>
    rw [List.forall_mem_cons, ← ih, List.mapM_cons]
    cases f a with
    | error e => simp [bind, Except.bind]
    | ok b =>
      cases list.mapM f with
      | error e => simp [bind, Except.bind]
      | ok bs =>
        have first : (Except.ok b >>= fun b => Except.ok bs >>= fun bs => pure (b :: bs)) =
          (.ok (b :: bs) : Except Breakdown (List β)) := rfl
        rw [first]
        change (∃ read, (b :: bs).mapM g = .ok read) ↔ (∃ c, g b = .ok c) ∧ ∃ read, bs.mapM g = .ok read
        rw [List.mapM_cons]
        cases g b with
        | error e => simp [bind, Except.bind]
        | ok c => cases bs.mapM g <;> simp [bind, Except.bind, pure, Except.pure]

theorem hasEntries_iff (v : Value) : HasEntries v ↔ ∃ entries, asEntries v = .ok entries := by
  cases v with
  | table entries => exact iff_of_true (.table entries) ⟨entries, rfl⟩
  | list items =>
    have listed : HasEntries (.list items) ↔ ∀ item ∈ items, IsEntry item :=
      ⟨fun | .list entries => entries, .list⟩
    simp only [listed, isEntry_iff]
    rw [← exists_mapM_mapM, asEntries]
    cases items.mapM asEntry with
    | error e => simp [bind, Except.bind]
    | ok entries => cases read : entries.mapM withTextKey <;> simp [bind, Except.bind, pure, Except.pure, read]
  | text s =>
    have listed : HasEntries (.text s) ↔ s = "" := ⟨fun | .empty => rfl, fun empty => empty ▸ .empty⟩
    rw [listed, asEntries]
    split <;> simp_all
  | _ => exact iff_of_false nofun (by simp [asEntries])

/-! ## Files -/

/-- A file that is read as a table whose section of options has no entries, or one in which a number
overflows. -/
def Breaks (files : Files) (p : Path) : Prop :=
  ∃ text table, files.look p = .file text ∧ Toml.read text = .ok table ∧
    (p.name = sharedFile ∧ ¬ HasEntries (valueAt sharedSection (.table table)) ∨
      ∃ data, optionsTable p table = .ok data ∧ Options.Overflows data)

/-- A file is read as a table, or the failure is reported. -/
theorem readTable_cases (files : Files) (p : Path) :
    (∃ text table, files.look p = .file text ∧ Toml.read text = .ok table ∧ readTable files p = .ok table) ∨
    (∃ r, readTable files p = .error (.reported r) ∧ r.kind ∈ Options.reportKinds) ∧
      ∀ text table, files.look p = .file text → Toml.read text ≠ .ok table := by
  cases entry : files.look p with
  | file text =>
    cases read : Toml.read text with
    | ok table => exact .inl ⟨text, table, rfl, read, by simp [readTable, entry, Entry.read, read]⟩
    | error reason =>
      refine .inr ⟨⟨Report.atPath .malformedConfig _ _,
        by rw [readTable, entry, Entry.read]; dsimp only; rw [read], ?_⟩, ?_⟩
      · simp [Options.reportKinds, Report.atPath]
      · intro text' table same
        cases same
        simp [read]
  | _ =>
    refine .inr ⟨⟨Report.atPath .config _ _, by rw [readTable, entry, Entry.read], ?_⟩, nofun⟩
    exact List.mem_cons_self

/-- The section of options in a table is found, or it has no entries. -/
theorem optionsTable_cases (p : Path) (table : Assoc Value) :
    (∃ data, optionsTable p table = .ok data ∧
      ¬ (p.name = sharedFile ∧ ¬ HasEntries (valueAt sharedSection (.table table)))) ∨
    ∃ b, optionsTable p table = .error (.broken b) ∧
      p.name = sharedFile ∧ ¬ HasEntries (valueAt sharedSection (.table table)) := by
  rw [hasEntries_iff, optionsTable]
  by_cases shared : p.name = sharedFile
  · rw [if_pos shared]
    cases asEntries (valueAt sharedSection (.table table)) with
    | ok entries => exact .inl ⟨entries, rfl, by simp⟩
    | error b => exact .inr ⟨b, rfl, shared, by simp⟩
  · rw [if_neg shared]
    exact .inl ⟨table, rfl, fun broken => shared broken.1⟩

theorem ends_loadFile (files : Files) (p : Path) : Options.Ends (Breaks files p) (loadFile files p) := by
  rw [loadFile]
  obtain ⟨text, table, found, parsed, read⟩ | ⟨⟨r, read, kind⟩, unread⟩ := readTable_cases files p
  · have breaks : Breaks files p ↔ p.name = sharedFile ∧ ¬ HasEntries (valueAt sharedSection (.table table)) ∨
        ∃ data, optionsTable p table = .ok data ∧ Options.Overflows data := by
      simp [Breaks, found, parsed]
    rw [read]
    obtain ⟨data, section', inside⟩ | ⟨b, section', outside⟩ := optionsTable_cases p table
    · have same : Options.Overflows data ↔ Breaks files p := by simp [breaks, inside, section']
      simpa [bind, Except.bind, section'] using (Options.ends_ofTable data (some p.toString)).congr same
    · have broken : (Except.ok table >>= fun table => optionsTable p table >>= fun data =>
          Options.ofTable data (some p.toString)) = .error (.broken b) := by
        simp [bind, Except.bind, section']
      exact broken ▸ breaks.mpr (.inl outside)
  · have reported : (readTable files p >>= fun table => optionsTable p table >>= fun data =>
        Options.ofTable data (some p.toString)) = .error (.reported r) := by
      rw [read]
      rfl
    refine reported ▸ ⟨kind, ?_⟩
    rintro ⟨text, table, found, parsed, -⟩
    exact unread text table found parsed

theorem ends_loadNamed (files : Files) (p : Path) : Options.Ends (Breaks files p) (loadNamed files p) := by
  rw [loadNamed]
  split
  · exact ends_loadFile files p
  · rename_i absent
    refine ⟨List.mem_cons_self, ?_⟩
    rintro ⟨text, table, found, -⟩
    exact absent (by rw [found]; rfl)

/-! ## The search -/

/-- The places of configuration files, nearest first. -/
def candidates (files : Files) (start : Path) : List Path :=
  (searched files start).flatMap fun directory => [directory.child ownFile, directory.child sharedFile]

/-- Whether a file ends the search: one that serves nothing else does, and a shared one unless it is read
and there are no options in it. -/
def counts (files : Files) (p : Path) : Bool :=
  (files.look p).isPresent && (p.name ≠ sharedFile ||
    match readTable files p >>= optionsTable p with
    | .ok [] => false
    | _ => true)

/-- The file that a search settles on. -/
def nearest? (files : Files) (start : Path) : Option Path := (candidates files start).find? (counts files)

theorem name_child_ownFile (directory : Path) : (directory.child ownFile).name = ownFile := by
  have single : Path.ofString ownFile = { parts := [ownFile] } := by decide
  simp [Path.child, Path.join, Path.name, single]

theorem name_child_sharedFile (directory : Path) : (directory.child sharedFile).name = sharedFile := by
  have single : Path.ofString sharedFile = { parts := [sharedFile] } := by decide
  simp [Path.child, Path.join, Path.name, single]

theorem counts_ownFile (files : Files) (directory : Path) :
    counts files (directory.child ownFile) = (files.look (directory.child ownFile)).isPresent := by
  have own : ownFile ≠ sharedFile := by decide
  simp [counts, name_child_ownFile, own]

theorem loadFile_eq (files : Files) (p : Path) : loadFile files p =
    ((readTable files p >>= optionsTable p) >>= fun data => Options.ofTable data (some p.toString)) := by
  rw [loadFile, bind_assoc]

/-- Looking for a file in a directory and loading it loads the first of its two files that counts. -/
theorem findIn?_bind (files : Files) (directory : Path) (next : Option Path → Except Failure Options)
    (loads : ∀ p, next (some p) = loadFile files p) :
    (findIn? files directory >>= next) =
      match [directory.child ownFile, directory.child sharedFile].find? (counts files) with
      | some p => loadFile files p
      | none => next none := by
  rw [findIn?]
  by_cases own : (files.look (directory.child ownFile)).isPresent = true
  · rw [if_pos own, List.find?_cons_of_pos (by rwa [counts_ownFile])]
    exact loads _
  · rw [if_neg own, List.find?_cons_of_neg (by rwa [counts_ownFile])]
    have name := name_child_sharedFile directory
    have loaded := loadFile_eq files (directory.child sharedFile)
    generalize directory.child sharedFile = p at name loaded
    by_cases shared : (files.look p).isPresent = true
    · -- The search and the loading look at the same section.
      have counted : counts files p =
          match readTable files p >>= optionsTable p with
          | .ok [] => false
          | _ => true := by
        simp [counts, shared, name]
      rw [if_pos shared, ← bind_assoc]
      cases section' : readTable files p >>= optionsTable p with
      | error e =>
        rw [section'] at counted loaded
        rw [List.find?_cons_of_pos counted]
        exact loaded.symm
      | ok table =>
        rw [section'] at counted loaded
        cases table with
        | nil =>
          rw [List.find?_cons_of_neg (by simp [counted])]
          rfl
        | cons entry entries =>
          rw [List.find?_cons_of_pos counted]
          exact loads p
    · rw [if_neg shared, List.find?_cons_of_neg (by simp [counts, shared])]
      rfl

/-- A search loads the first file that counts. What is wrong with a file that the search looks into is
found in the same way when the file is loaded. -/
theorem loadNearest_eq (files : Files) (start : Path) :
    loadNearest files start = (nearest? files start).elim (.ok {}) (loadFile files) := by
  have general : ∀ directories, (firstIn? files directories >>= fun found =>
      match found with
      | some p => loadFile files p
      | none => return {}) =
      ((directories.flatMap fun directory => [directory.child ownFile, directory.child sharedFile]).find?
        (counts files)).elim (.ok {}) (loadFile files) := by
    intro directories
    induction directories with
    | nil => rfl
    | cons directory rest ih =>
      rw [firstIn?, bind_assoc, List.flatMap_cons, List.find?_append, findIn?_bind _ _ _ fun p => rfl]
      cases [directory.child ownFile, directory.child sharedFile].find? (counts files) with
      | some p => rfl
      | none => exact ih
  exact general (searched files start)

theorem supported_default : ({} : Options).Supported := ⟨.inr rfl, rfl⟩

theorem ends_loadNearest (files : Files) (start : Path) :
    Options.Ends (∃ p, nearest? files start = some p ∧ Breaks files p) (loadNearest files start) := by
  rw [loadNearest_eq]
  cases found : nearest? files start with
  | none => exact ⟨supported_default, by simp⟩
  | some p => exact (ends_loadFile files p).congr (by simp)

/-- Options from a table, from a file or from a search either are supported or come to a report about the
configuration, except that reading breaks down exactly where a number overflows or a section has no entries:
in the table, in the file, or in the file that the search settles on. -/
theorem loading_ends (files : Files) :
    (∀ data source, Options.Ends (Options.Overflows data) (Options.ofTable data source)) ∧
    (∀ p, Options.Ends (Breaks files p) (loadNamed files p)) ∧
    ∀ start, Options.Ends (∃ p, nearest? files start = some p ∧ Breaks files p) (loadNearest files start) :=
  ⟨Options.ends_ofTable, ends_loadNamed files, ends_loadNearest files⟩

/-- A number in the place of the section breaks the loading down. -/
example :
    (match loadNamed (FileTree.files (FileTree.ofTexts [("pyproject.toml", "[tool]\ncomponent-converter = 5\n")]) {})
      (Path.ofString "pyproject.toml") with
    | .error (.broken .wrongType) => true
    | _ => false) = true := by
  decide +kernel

end Config

end Recast
