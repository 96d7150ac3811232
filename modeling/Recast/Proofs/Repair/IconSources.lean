import Recast.Generate.Import
import Recast.Proofs.Repair.FixedText
import Recast.Proofs.Repair.FromClause

/-!
# Icon packages in scripts

A module counts as an icon package if it is one or lies inside one, but only the packages themselves have
counterparts. What lies inside one is written as it is, in the imports that are carried over and in the text that is
cleaned.
-/

set_option autoImplicit false

namespace Recast.Repair

open Recast.Text Recast.Catalog

def isIcon (source : List Char) : Bool := isIconPackage (String.ofList source)

/-- The module that replaces a module. -/
def counterpart (target : Target) (source : List Char) : List Char :=
  ((iconPackageFor? (String.ofList source) target).map String.toList).getD source

/-! ## Counterparts -/

theorem isSome_get? {α : Type} (key : String) (table : Assoc α) : (table.get? key).isSome = table.has key := by
  induction table with
  | nil => rfl
  | cons entry table ih =>
    rw [Assoc.get?, List.lookup_cons, Assoc.has, List.any_cons, BEq.comm]
    split
    · rename_i here
      rw [here, Option.isSome_some, Bool.true_or]
    · rename_i other
      rw [other, Bool.false_or]
      exact ih

theorem isIconPackage_of_listed {source : String} {p : IconPackages} (found : iconPackages.get? source = some p) :
    isIconPackage p.svelte = false ∧ isIconPackage p.vue = false := by
  have all : ∀ entry ∈ iconPackages, isIconPackage entry.2.svelte = false ∧ isIconPackage entry.2.vue = false := by
    decide +kernel
  obtain ⟨front, back, listed, -⟩ := List.lookup_eq_some_iff.mp found
  exact all (source, p) (by rw [listed]; simp)

/-- What lies inside a package is kept, and is an icon package still. -/
theorem isIconPackage_counterpart (source : String) (target : Target) :
    isIconPackage ((iconPackageFor? source target).getD source) =
      (isIconPackage source && !iconPackages.has source) := by
  rw [iconPackageFor?, ← isSome_get?]
  cases found : iconPackages.get? source with
  | none => simp
  | some p =>
    obtain ⟨svelte, vue⟩ := isIconPackage_of_listed found
    cases target <;> simp [svelte, vue]

/-! ## Scans -/

theorem map_fromSources {β : Type} (g : List Char → β) (cs : List Char) :
    (fromSources cs).map g = scan (fun _ => []) (fun _ source => [g source]) none cs := by
  rw [fromSources, scan, ← segments]
  induction segments fromClause cs with
  | nil => rfl
  | cons p pieces ih =>
    rw [List.flatMap_cons, ← ih]
    cases p <;> simp [List.filterMap_cons, Segment.value?, piece]

/-- A clause with the counterpart of its module. -/
def FromClause.moved (target : Target) (c : FromClause) : FromClause :=
  { c with source := counterpart target c.source }

theorem iconSource_eq (target : Target) (previous : Option Char) (cs : List Char) :
    iconSource target previous cs =
      (fromClause previous cs).map fun found => ((found.1.moved target).text, found.2) := by
  rw [iconSource, fromClause]
  simp only [Option.bind_eq_bind, Option.map_bind, Function.comp_def]
  refine Option.bind_congr fun _ start => Option.bind_congr fun behind keyword => ?_
  refine Option.bind_congr fun ⟨q, source, rest⟩ quoted => Option.bind_congr fun _ closed => ?_
  have found : fromClause previous cs =
      some (⟨readPart cs (behind.dropWhile isBlank), q, source⟩, rest) := by
    simp only [fromClause, Option.bind_eq_bind, Option.bind_eq_some_iff]
    exact ⟨_, start, _, keyword, _, quoted, _, closed, rfl⟩
  obtain ⟨-, -, whole⟩ := fromClause_eq_some_iff.mp found
  have kept : readPart cs rest = FromClause.text ⟨readPart cs (behind.dropWhile isBlank), q, source⟩ := by
    conv_lhs => rw [whole]
    exact readPart_append _ rest
  dsimp only
  rw [kept]
  cases package : iconPackageFor? (String.ofList source) target with
  | none => simp [FromClause.moved, counterpart, package]
  | some name => simp [FromClause.moved, FromClause.text, counterpart, package]

theorem substituteBehind_iconSource (target : Target) (previous : Option Char) (cs : List Char) :
    substituteBehind (iconSource target) previous cs =
      scan (fun c => [c]) (fun q source => counterpart target source ++ [q]) previous cs := by
  have general : ∀ skip previous, (segmentsFrom (iconSource target) skip previous cs).flatMap (Segment.replaced id) =
      (segmentsFrom fromClause skip previous cs).flatMap
        (piece (fun c => [c]) fun q source => counterpart target source ++ [q]) := by
    intro skip previous
    fun_induction segmentsFrom fromClause skip previous cs with
    | case1 => rfl
    | case2 skip previous c cs ih => exact ih
    | case3 previous c cs a rest found length ih =>
      have moved : iconSource target previous (c :: cs) = some ((a.moved target).text, rest) := by
        rw [iconSource_eq, found]
        rfl
      simp only [segmentsFrom, moved, List.flatMap_cons, Segment.replaced, piece, id_eq]
      rw [ih, FromClause.text, FromClause.moved]
      simp
    | case4 previous c cs found ih =>
      have moved : iconSource target previous (c :: cs) = none := by
        rw [iconSource_eq, found]
        rfl
      rw [segmentsFrom_of_none moved, flatMap_replaced_pushPlain, ih, flatMap_piece_pushPlain]
      rfl
  exact general 0 previous

/-! ## Modules that are moved -/

theorem counterpart_cases (target : Target) (source : List Char) :
    counterpart target source = source ∨ counterpart target source ≠ [] ∧
      Unquoted (counterpart target source) ∧ '\n' ∉ counterpart target source := by
  have all : ∀ entry ∈ iconPackages,
      (entry.2.svelte.toList ≠ [] ∧ Unquoted entry.2.svelte.toList ∧ '\n' ∉ entry.2.svelte.toList) ∧
      entry.2.vue.toList ≠ [] ∧ Unquoted entry.2.vue.toList ∧ '\n' ∉ entry.2.vue.toList := by
    decide +kernel
  rw [counterpart, iconPackageFor?]
  cases found : iconPackages.get? (String.ofList source) with
  | none => exact .inl rfl
  | some p =>
    obtain ⟨front, back, listed, -⟩ := List.lookup_eq_some_iff.mp found
    obtain ⟨svelte, vue⟩ := all (String.ofList source, p) (by rw [listed]; simp)
    cases target with
    | svelte => exact .inr svelte
    | vue => exact .inr vue

theorem counterpart_ne_nil {source : List Char} (nonempty : source ≠ []) (target : Target) :
    counterpart target source ≠ [] := by
  rcases counterpart_cases target source with same | listed
  · rwa [same]
  · exact listed.1

theorem unquoted_counterpart {source : List Char} (unquoted : Unquoted source) (target : Target) :
    Unquoted (counterpart target source) := by
  rcases counterpart_cases target source with same | listed
  · rwa [same]
  · exact listed.2.1

/-- A text with the counterparts of its modules. -/
def movedText (target : Target) : List Char → List Char :=
  scan (fun c => [c]) (fun q source => counterpart target source ++ [q]) none

/-- The same for the text behind a quote that a keyword stands in front of. -/
def movedQuoted (target : Target) (q : Char) : List Char → List Char :=
  scanQuoted (fun c => [c]) (fun q source => counterpart target source ++ [q]) q

section Moved

variable {run : List Char} {q : Char} (target : Target)

theorem movedText_last (unquoted : Unquoted run) : movedText target run = run := by
  rw [movedText, scan_last _ _ unquoted, List.flatMap_singleton']

theorem movedQuoted_last (unquoted : Unquoted run) : movedQuoted target q run = run := by
  rw [movedQuoted, scanQuoted_last _ _ unquoted, List.flatMap_singleton']

theorem movedText_of_opens (unquoted : Unquoted run) (quote : isPlainQuote q = true) (opens : Opens none run)
    (text : List Char) : movedText target (run ++ q :: text) = run ++ q :: movedQuoted target q text := by
  rw [movedText, scan_run_of_opens _ _ unquoted quote opens, List.flatMap_singleton', List.append_assoc]
  rfl

theorem movedText_of_not_opens (unquoted : Unquoted run) (quote : isPlainQuote q = true) (other : ¬ Opens none run)
    (text : List Char) : movedText target (run ++ q :: text) = run ++ q :: movedText target text := by
  rw [movedText, scan_run_of_not_opens _ _ unquoted quote other, List.flatMap_singleton', List.append_assoc]
  rfl

theorem movedQuoted_run (unquoted : Unquoted run) {q' : Char} (quote : isPlainQuote q' = true) (text : List Char) :
    movedQuoted target q (run ++ q' :: text) =
      if run ≠ [] ∧ q' = q then counterpart target run ++ q' :: movedText target text
      else movedText target (run ++ q' :: text) := by
  rw [movedQuoted, scanQuoted_run _ _ unquoted quote]
  split
  · rename_i closed
    rw [closed.2, List.append_assoc]
    rfl
  · rfl

end Moved

/-- What is read of the modules of a text. -/
def readText {β : Type} (g : List Char → β) : List Char → List β :=
  scan (fun _ => []) (fun _ source => [g source]) none

/-- The same for the text behind a quote that a keyword stands in front of. -/
def readQuoted {β : Type} (g : List Char → β) (q : Char) : List Char → List β :=
  scanQuoted (fun _ => []) (fun _ source => [g source]) q

section Read

variable {β : Type} (g : List Char → β) {run : List Char} {q : Char}

theorem readText_last (unquoted : Unquoted run) : readText g run = [] := by
  rw [readText, scan_last _ _ unquoted, List.flatMap_eq_nil_iff]
  exact fun _ _ => rfl

theorem readQuoted_last (unquoted : Unquoted run) : readQuoted g q run = [] := by
  rw [readQuoted, scanQuoted_last _ _ unquoted, List.flatMap_eq_nil_iff]
  exact fun _ _ => rfl

theorem readText_of_opens (unquoted : Unquoted run) (quote : isPlainQuote q = true) (opens : Opens none run)
    (text : List Char) : readText g (run ++ q :: text) = readQuoted g q text := by
  rw [readText, scan_run_of_opens _ _ unquoted quote opens, List.flatMap_eq_nil_iff.mpr fun _ _ => rfl]
  rfl

theorem readText_of_not_opens (unquoted : Unquoted run) (quote : isPlainQuote q = true) (other : ¬ Opens none run)
    (text : List Char) : readText g (run ++ q :: text) = readText g text := by
  rw [readText, scan_run_of_not_opens _ _ unquoted quote other, List.flatMap_eq_nil_iff.mpr fun _ _ => rfl]
  rfl

theorem readQuoted_run (unquoted : Unquoted run) {q' : Char} (quote : isPlainQuote q' = true) (text : List Char) :
    readQuoted g q (run ++ q' :: text) =
      if run ≠ [] ∧ q' = q then g run :: readText g text else readText g (run ++ q' :: text) :=
  scanQuoted_run _ _ unquoted quote text

end Read

/-- A scan of the text with counterparts finds the counterparts. -/
theorem readText_movedText {β : Type} (g : List Char → β) (target : Target) (cs : List Char) :
    readText g (movedText target cs) = readText (g ∘ counterpart target) cs ∧
      ∀ q, readQuoted g q (movedQuoted target q cs) = readQuoted (g ∘ counterpart target) q cs := by
  induction cs using run_induction with
  | last run unquoted =>
    rw [movedText_last _ unquoted, readText_last _ unquoted, readText_last _ unquoted]
    refine ⟨rfl, fun q => ?_⟩
    rw [movedQuoted_last _ unquoted, readQuoted_last _ unquoted, readQuoted_last _ unquoted]
  | more run q text unquoted quote ih =>
    obtain ⟨later, quoted⟩ := ih
    have here : readText g (movedText target (run ++ q :: text)) =
        readText (g ∘ counterpart target) (run ++ q :: text) := by
      by_cases opens : Opens none run
      · rw [movedText_of_opens _ unquoted quote opens, readText_of_opens _ unquoted quote opens,
          readText_of_opens _ unquoted quote opens, quoted]
      · rw [movedText_of_not_opens _ unquoted quote opens, readText_of_not_opens _ unquoted quote opens,
          readText_of_not_opens _ unquoted quote opens, later]
    refine ⟨here, fun p => ?_⟩
    rw [movedQuoted_run _ unquoted quote, readQuoted_run _ unquoted quote]
    by_cases closed : run ≠ [] ∧ q = p
    · have moved : counterpart target run ≠ [] ∧ q = p := ⟨counterpart_ne_nil closed.1 target, closed.2⟩
      rw [if_pos closed, if_pos closed, readQuoted_run _ (unquoted_counterpart unquoted target) quote, if_pos moved,
        later]
      rfl
    · rw [if_neg closed, if_neg closed, ← here]
      -- behind a run that closes nothing, the scan goes on as if no keyword had been met
      by_cases opens : Opens none run
      · rw [movedText_of_opens _ unquoted quote opens, readQuoted_run _ unquoted quote, if_neg closed]
      · rw [movedText_of_not_opens _ unquoted quote opens, readQuoted_run _ unquoted quote, if_neg closed]

theorem map_fromSources_iconSource {β : Type} (g : List Char → β) (target : Target) (cs : List Char) :
    (fromSources (substitute (iconSource target) cs)).map g = (fromSources cs).map (g ∘ counterpart target) := by
  rw [map_fromSources, map_fromSources, substitute_eq, substituteBehind_iconSource]
  exact (readText_movedText g target cs).1

/-! ## Texts that read from the same packages -/

/-- Two runs that make no difference to which modules are icon packages. -/
structure Similar (run run' : List Char) : Prop where
  unquoted : Unquoted run
  unquoted' : Unquoted run'
  nonempty : run ≠ [] ↔ run' ≠ []
  opens : Opens none run ↔ Opens none run'
  icon : isIcon run = isIcon run'

theorem Similar.refl {run : List Char} (unquoted : Unquoted run) : Similar run run :=
  ⟨unquoted, unquoted, Iff.rfl, Iff.rfl, rfl⟩

/-- Two texts that read from icon packages at the same places. -/
def SameIcons (cs ds : List Char) : Prop :=
  readText isIcon cs = readText isIcon ds ∧ ∀ q, readQuoted isIcon q cs = readQuoted isIcon q ds

theorem sameIcons_last {run run' : List Char} (unquoted : Unquoted run) (unquoted' : Unquoted run') :
    SameIcons run run' := by
  refine ⟨?_, fun q => ?_⟩
  · rw [readText_last _ unquoted, readText_last _ unquoted']
  · rw [readQuoted_last _ unquoted, readQuoted_last _ unquoted']

theorem Similar.sameIcons {run run' : List Char} (similar : Similar run run') {q : Char}
    (quote : isPlainQuote q = true) {cs ds : List Char} (later : SameIcons cs ds) :
    SameIcons (run ++ q :: cs) (run' ++ q :: ds) := by
  have here : readText isIcon (run ++ q :: cs) = readText isIcon (run' ++ q :: ds) := by
    by_cases opens : Opens none run
    · rw [readText_of_opens _ similar.unquoted quote opens,
        readText_of_opens _ similar.unquoted' quote (similar.opens.mp opens), later.2]
    · rw [readText_of_not_opens _ similar.unquoted quote opens,
        readText_of_not_opens _ similar.unquoted' quote (opens ∘ similar.opens.mpr), later.1]
  refine ⟨here, fun p => ?_⟩
  rw [readQuoted_run _ similar.unquoted quote, readQuoted_run _ similar.unquoted' quote, here, similar.icon, later.1]
  simp only [similar.nonempty]

theorem sameIcons_behind {cs ds : List Char} (each : ∀ run, Unquoted run → SameIcons (run ++ cs) (run ++ ds))
    (front : List Char) : SameIcons (front ++ cs) (front ++ ds) := by
  induction front using run_induction with
  | last run unquoted => exact each run unquoted
  | more run q text unquoted quote ih =>
    rw [List.append_assoc, List.append_assoc]
    exact (Similar.refl unquoted).sameIcons quote ih

theorem sameIcons_front {cs ds : List Char} (each : ∀ run, Unquoted run → Similar (cs ++ run) (ds ++ run))
    (back : List Char) : SameIcons (cs ++ back) (ds ++ back) := by
  rcases run_cases back with last | ⟨run, q, rest, unquoted, quote, rfl⟩
  · exact sameIcons_last (each back last).unquoted (each back last).unquoted'
  · rw [← List.append_assoc, ← List.append_assoc]
    exact (each run unquoted).sameIcons quote ⟨rfl, fun _ => rfl⟩

theorem lastOr_append_cons (previous : Option Char) (front : List Char) (d : Char) (text : List Char) :
    lastOr previous (front ++ d :: text) = lastOr (some d) text := by
  induction front generalizing previous with
  | nil => exact lastOr_cons previous d text
  | cons c front ih => rw [List.cons_append, lastOr_cons, ih]

/-- A character that belongs to no keyword cuts off what stands in front of it. -/
theorem opens_append_cons {d : Char} (other : isBlank d = false) (apart : d ∉ "from".toList) (previous : Option Char)
    (front back : List Char) : Opens previous (front ++ d :: back) ↔ Opens (some d) back := by
  constructor
  · rintro ⟨start, keyword, whole, isKeyword, bounded⟩
    have outside : d ∉ keyword := by
      obtain ⟨blanks, all, rfl⟩ := isKeyword
      intro member
      rcases List.mem_append.mp member with here | blank
      · exact apart here
      · exact Bool.false_ne_true (other.symm.trans (all d blank))
    rcases List.append_eq_append_iff.mp whole with ⟨gap, rfl, rest⟩ | ⟨gap, -, rfl⟩
    · cases gap with
      | nil =>
        obtain rfl : d :: back = keyword := rest
        exact absurd List.mem_cons_self outside
      | cons c gap =>
        obtain ⟨rfl, rfl⟩ := List.cons_eq_cons.mp rest
        exact ⟨gap, keyword, rfl, isKeyword, by rwa [lastOr_append_cons] at bounded⟩
    · exact absurd (by simp) outside
  · rintro ⟨start, keyword, rfl, isKeyword, bounded⟩
    exact ⟨front ++ d :: start, keyword, by simp, isKeyword, by rwa [lastOr_append_cons]⟩

theorem similar_of_ending {front front' run : List Char} {d : Char} (unquoted : Unquoted (front ++ d :: run))
    (unquoted' : Unquoted (front' ++ d :: run)) (other : isBlank d = false) (apart : d ∉ "from".toList)
    (icon : isIcon (front ++ d :: run) = isIcon (front' ++ d :: run)) :
    Similar (front ++ d :: run) (front' ++ d :: run) where
  unquoted := unquoted
  unquoted' := unquoted'
  nonempty := by simp
  opens := by rw [opens_append_cons other apart, opens_append_cons other apart]
  icon := icon

/-! ## Rules that keep them -/

/-- An icon package is listed or has a listed one and a slash in front. -/
theorem isIcon_iff (source : List Char) :
    isIcon source = true ↔ ∃ entry ∈ iconPackages,
      after? entry.1.toList source = some [] ∨ (after? (entry.1.toList ++ ['/']) source).isSome := by
  have own : ∀ entry : String × IconPackages,
      entry.1 = String.ofList source ↔ after? entry.1.toList source = some [] := fun entry => by
    rw [after?_eq_some_iff, List.append_nil, ← String.toList_inj, String.toList_ofList, eq_comm]
  simp only [isIcon, isIconPackage, Assoc.has, Bool.or_eq_true, List.any_eq_true, beq_iff_eq, own, startsWith,
    String.toList_append, String.toList_ofList, and_or_left, exists_or]
  rfl

/-- A brace stands in no package name, so what follows it makes no difference. -/
theorem isIcon_append_brace (run back back' : List Char) :
    isIcon (run ++ '\x7b' :: back) = isIcon (run ++ '\x7b' :: back') := by
  have apart : ∀ entry ∈ iconPackages, '\x7b' ∉ entry.1.toList ++ ['/'] := by decide +kernel
  rw [Bool.eq_iff_iff, isIcon_iff, isIcon_iff]
  refine exists_congr fun entry => and_congr_right fun listed => ?_
  have inside := apart entry listed
  have behind : ∀ p : List Char, '\x7b' ∉ p → ∀ back,
      after? p (run ++ '\x7b' :: back) = (after? p run).map (· ++ '\x7b' :: back) := fun p lacks back =>
    after?_append_of_head (by simpa using lacks) run
  rw [behind _ (fun here => inside (List.mem_append_left _ here)), behind _ inside,
    behind _ (fun here => inside (List.mem_append_left _ here)), behind _ inside]
  simp

/-- A module that starts like no package is none. -/
theorem isIcon_eq_false {source : List Char}
    (apart : ∀ entry ∈ iconPackages, after? entry.1.toList source = none) : isIcon source = false := by
  rw [← Bool.not_eq_true, isIcon_iff]
  rintro ⟨entry, listed, whole | inside⟩
  · rw [apart entry listed] at whole
    cases whole
  · obtain ⟨rest, found⟩ := Option.isSome_iff_exists.mp inside
    have none := apart entry listed
    rw [after?_eq_some_iff.mp found, List.append_assoc, after?_append] at none
    cases none

theorem helperPath_eq_some {previous : Option Char} {cs new rest : List Char}
    (found : helperPath previous cs = some (new, rest)) :
    ∃ q, isPlainQuote q = true ∧ cs = q :: ("@/lib/".toList ++ rest) ∧ new = q :: "$lib/".toList := by
  simp only [helperPath, Option.bind_eq_bind, Option.bind_eq_some_iff, Option.guard_eq_some',
    after?_eq_some_iff] at found
  obtain ⟨q, head, -, quote, left, behind, same⟩ := found
  obtain ⟨rfl, rfl⟩ := Prod.mk.inj (Option.some.inj same)
  obtain ⟨cs, rfl⟩ := List.head?_eq_some_iff.mp head
  exact ⟨q, quote, congrArg (List.cons q) behind, rfl⟩

theorem sameIcons_helperPath {front back : List Char} {q : Char} (quote : isPlainQuote q = true) :
    SameIcons (front ++ (q :: "@/lib/".toList ++ back)) (front ++ (q :: "$lib/".toList ++ back)) := by
  refine sameIcons_behind (fun run unquoted => ?_) front
  refine (Similar.refl unquoted).sameIcons quote (sameIcons_front (fun inside inner => ?_) back)
  have older : Unquoted "@/lib/".toList := by decide
  have newer : Unquoted "$lib/".toList := by decide
  have icons : isIcon ("@/lib/".toList ++ inside) = isIcon ("$lib/".toList ++ inside) :=
    (isIcon_eq_false (by simp [iconPackages, after?])).trans (isIcon_eq_false (by simp [iconPackages, after?])).symm
  have similar : Similar ("@/lib".toList ++ '/' :: inside) ("$lib".toList ++ '/' :: inside) :=
    similar_of_ending (older.append inner) (newer.append inner) (by decide) (by decide) icons
  exact similar

theorem sameIcons_restProps {front back : List Char} :
    SameIcons (front ++ ("\x7b...$$props\x7d".toList ++ back)) (front ++ ("\x7b...$$restProps\x7d".toList ++ back)) := by
  refine sameIcons_behind (fun run unquoted => ?_) front
  rw [← List.append_assoc, ← List.append_assoc]
  refine sameIcons_front (fun inside inner => ?_) back
  have split : ∀ name : List Char, run ++ ('\x7b' :: name ++ ['\x7d']) ++ inside =
      run ++ '\x7b' :: name ++ '\x7d' :: inside := by simp
  have unbraced : ∀ name : List Char, Unquoted ('\x7b' :: name) →
      Unquoted (run ++ '\x7b' :: name ++ '\x7d' :: inside) := fun name inName =>
    (unquoted.append inName).append (Unquoted.append (by decide : Unquoted ['\x7d']) inner)
  have icons : isIcon (run ++ '\x7b' :: "...$$props".toList ++ '\x7d' :: inside) =
      isIcon (run ++ '\x7b' :: "...$$restProps".toList ++ '\x7d' :: inside) := by
    rw [List.append_assoc, List.append_assoc]
    exact isIcon_append_brace run _ _
  have braced := similar_of_ending (unbraced "...$$props".toList (by decide))
    (unbraced "...$$restProps".toList (by decide)) (by decide) (by decide) icons
  rw [← split, ← split] at braced
  exact braced

theorem sameIcons_attrs {front back : List Char} :
    SameIcons (front ++ ("v-bind=\"$props\"".toList ++ back)) (front ++ ("v-bind=\"$attrs\"".toList ++ back)) := by
  refine sameIcons_behind (fun run unquoted => ?_) front
  have split : ∀ name : List Char, run ++ ("v-bind=".toList ++ '"' :: (name ++ ['"']) ++ back) =
      run ++ "v-bind=".toList ++ '"' :: (name ++ '"' :: back) := by simp
  have bound : Similar ("$prop".toList ++ ['s']) ("$attr".toList ++ ['s']) :=
    similar_of_ending (by decide) (by decide) (by decide) (by decide) (by decide +kernel)
  have binding : Unquoted "v-bind=".toList := by decide
  have behind : SameIcons back back := ⟨rfl, fun _ => rfl⟩
  have quote : isPlainQuote '"' = true := rfl
  have whole : SameIcons (run ++ "v-bind=".toList ++ '"' :: ("$props".toList ++ '"' :: back))
      (run ++ "v-bind=".toList ++ '"' :: ("$attrs".toList ++ '"' :: back)) :=
    (Similar.refl (unquoted.append binding)).sameIcons quote (bound.sameIcons quote behind)
  rw [← split, ← split] at whole
  exact whole

/-! ## Cleaned texts -/

theorem consumes_helperPath : Consumes helperPath := by
  intro previous cs new rest found
  obtain ⟨q, -, rfl, -⟩ := helperPath_eq_some found
  exact ⟨q :: "@/lib/".toList, List.cons_ne_nil _ _, rfl⟩

/-- The rules of the last step change no module into an icon package, and none out of one. -/
theorem readText_targetRule {target : Target} {runes : Bool} {rule : Rule (List Char)}
    (listed : rule ∈ targetRules target runes) (cs : List Char) :
    readText isIcon (substitute rule cs) = readText isIcon cs := by
  have literal : ∀ {old new : String}, old.toList ≠ [] →
      (∀ front back, SameIcons (front ++ (old.toList ++ back)) (front ++ (new.toList ++ back))) →
      readText isIcon (substitute (literally old new) cs) = readText isIcon cs := by
    intro old new nonempty same
    refine substitute_keeps _ (consumes_literally nonempty new) ?_ cs
    intro p raw text rest found front back
    obtain ⟨whole, rfl⟩ := literally_eq_some found
    obtain rfl := List.append_cancel_right whole
    exact (same front back).1
  cases target with
  | vue =>
    obtain rfl := List.mem_singleton.mp listed
    exact literal (by decide) fun _ _ => sameIcons_attrs
  | svelte =>
    rcases List.mem_append.mp listed with here | later
    · obtain rfl := List.mem_singleton.mp here
      refine substitute_keeps _ consumes_helperPath ?_ cs
      intro p raw text rest found front back
      obtain ⟨q, quote, whole, rfl⟩ := helperPath_eq_some found
      rw [← List.cons_append] at whole
      obtain rfl := List.append_cancel_right whole
      exact (sameIcons_helperPath quote).1
    · cases runes with
      | true => cases later
      | false =>
        obtain rfl := List.mem_singleton.mp later
        exact literal (by decide) fun _ _ => sameIcons_restProps

/-- A text without the primitives that it imports and without unused types, where modules are still to be moved. -/
def uncluttered (text : List Char) : List Char :=
  dropVariantProps (substitute primitiveAlias (substitute primitivesImport text))

theorem cleanImports_text (text : List Char) (target : Target) (runes : Bool) :
    (cleanImports text target runes).text =
      (targetRules target runes).foldl (fun cs rule => substitute rule cs)
        (substitute (iconSource target) (uncluttered text)) := by
  have rules : ∀ (rs : List (Rule (List Char))) (c : Cleaned),
      (rs.foldl (fun c rule => c.byRule rule) c).text = rs.foldl (fun cs rule => substitute rule cs) c.text := by
    intro rs
    induction rs with
    | nil => exact fun _ => rfl
    | cons rule rs ih => exact fun c => ih (c.byRule rule)
  rw [cleanImports, rules]
  rfl

theorem readText_cleanImports (text : List Char) (target : Target) (runes : Bool) :
    readText isIcon (cleanImports text target runes).text =
      readText isIcon (substitute (iconSource target) (uncluttered text)) := by
  have rules : ∀ rs : List (Rule (List Char)), (∀ rule ∈ rs, rule ∈ targetRules target runes) → ∀ cs,
      readText isIcon (rs.foldl (fun cs rule => substitute rule cs) cs) = readText isIcon cs := by
    intro rs
    induction rs with
    | nil => exact fun _ _ => rfl
    | cons rule rs ih =>
      intro listed cs
      rw [List.foldl_cons, ih fun r member => listed r (.tail _ member)]
      exact readText_targetRule (listed rule List.mem_cons_self) cs
  rw [cleanImports_text]
  exact rules _ (fun _ member => member) _

/-- Modules that lie inside an icon package reach the output: as the module of an import that is carried over, and in
the from clauses of cleaned text, one for one. The packages themselves do not. -/
theorem icon_sources_kept_iff (target : Target) :
    (∀ i j, Generate.carriedImport? target i = some j → i.category = .icon → isIconPackage i.source = true →
      (isIconPackage j.source = true ↔ iconPackages.has i.source = false)) ∧
    ∀ text runes,
      (fromSources (cleanImports text target runes).text).map isIcon =
        (fromSources (uncluttered text)).map fun source =>
          isIcon source && !iconPackages.has (String.ofList source) := by
  constructor
  · intro i j carries icon accepted
    have source : j.source = (iconPackageFor? i.source target).getD i.source := by
      simp only [Generate.carriedImport?, icon, if_true] at carries
      split at carries
      · cases carries
      · cases carries
        rfl
    rw [source, isIconPackage_counterpart, accepted, Bool.true_and, Bool.not_eq_true']
  · intro text runes
    have mapped : isIcon ∘ counterpart target =
        fun source => isIcon source && !iconPackages.has (String.ofList source) := by
      funext source
      rw [Function.comp_apply, isIcon, isIcon, ← isIconPackage_counterpart _ target, counterpart]
      cases iconPackageFor? (String.ofList source) target <;> simp
    rw [map_fromSources, ← readText, readText_cleanImports, readText, ← map_fromSources, map_fromSources_iconSource,
      mapped]

theorem icon_sources_kept_inside :
    Generate.carriedImport? .svelte { source := "react-icons/fa", named := ["FaBeer"], category := .icon } =
        some { source := "react-icons/fa", named := ["FaBeer"], category := .icon } ∧
      isIconPackage "react-icons/fa" = true := by
  have carries : Generate.carriedImport? .svelte
      { source := "react-icons/fa", named := ["FaBeer"], category := .icon } =
        some { source := "react-icons/fa", named := ["FaBeer"], category := .icon } := by decide +kernel
  have kept := (icon_sources_kept_iff .svelte).1 _ _ carries rfl (by decide +kernel)
  exact ⟨carries, kept.mpr (by decide +kernel)⟩

end Recast.Repair
