import ShiftReduce.Dictionary
import ShiftReduce.Grammar.Names
import ShiftReduce.Grammar
import Mathlib.Data.List.Induction
import Mathlib.Order.Bounds.Basic

/-!
Looking productions up. A grammar can be kept with an index, in which each new production puts
its number under its written form. Whatever is added and however often, the index finds what a
search through the productions finds: the last one that is written so. If names hold no space
and tell the symbols apart, a production can be read off its written form, unless a symbol
with the name of two quotes is all of its right-hand side. Then the search for the written form
and the search for the production itself find the same production.
-/
namespace ShiftReduce

variable {τ ν : Type}

section LastIndex

variable {α : Type} {test : α → Bool}

theorem lastIndex?_append_singleton (list : List α) (a : α) :
    lastIndex? test (list ++ [a]) = if test a then some list.length else lastIndex? test list := by
  induction list with
  | nil => rfl
  | cons first rest ih =>
    rw [List.cons_append, lastIndex?, ih]
    cases test a with
    | true => rfl
    | false => rfl

/-- The places of a list at which a test holds. -/
def placesOf (test : α → Bool) (list : List α) : Set Nat :=
  {place | ∃ a, list[place]? = some a ∧ test a}

theorem mem_placesOf_append_singleton {list : List α} {a : α} {place : Nat} :
    place ∈ placesOf test (list ++ [a]) ↔
      place ∈ placesOf test list ∨ place = list.length ∧ test a := by
  simp only [placesOf, Set.mem_ofPred_eq, List.getElem?_append]
  split
  · grind
  · grind

theorem lastIndex?_eq_some_iff {list : List α} {index : Nat} :
    lastIndex? test list = some index ↔ IsGreatest (placesOf test list) index := by
  induction list using List.reverseRecOn with
  | nil => simp [lastIndex?, IsGreatest, placesOf]
  | append_singleton list a ih =>
    rw [lastIndex?_append_singleton]
    split
    · next htest =>
      have hlast : IsGreatest (placesOf test (list ++ [a])) list.length := by
        refine ⟨mem_placesOf_append_singleton.mpr (Or.inr ⟨rfl, htest⟩), ?_⟩
        rintro place ⟨b, hplace, -⟩
        have hlt := (List.getElem?_eq_some_iff.mp hplace).1
        rw [List.length_append, List.length_singleton] at hlt
        omega
      rw [Option.some_inj]
      exact ⟨fun heq => heq ▸ hlast, fun h => hlast.unique h⟩
    · next htest =>
      have hplaces : placesOf test (list ++ [a]) = placesOf test list := by
        ext place
        simp [mem_placesOf_append_singleton, htest]
      rw [ih, hplaces]

theorem exists_lastIndex?_iff {list : List α} :
    (∃ index, lastIndex? test list = some index) ↔ ∃ a ∈ list, test a := by
  induction list using List.reverseRecOn with
  | nil => simp [lastIndex?]
  | append_singleton list a ih =>
    rw [lastIndex?_append_singleton]
    split
    · next htest => exact ⟨fun _ => ⟨a, by simp, htest⟩, fun _ => ⟨_, rfl⟩⟩
    · next htest => rw [ih]; simp [htest]

end LastIndex

namespace Production

variable [ToString τ] [ToString ν]

/-- The names and the signs of the written form, between which the spaces stand. -/
def writtenNames (p : Production τ ν) : List String :=
  toString p.lhs :: "->" ::
    match p.rhs with
    | [] => [epsilonName]
    | rhs => rhs.map Symbol.display

theorem intercalate_space (name : String) (names : List String) :
    " ".intercalate (name :: names) = name ++ String.join (names.map (" " ++ ·)) := by
  induction names generalizing name with
  | nil => simp
  | cons next names ih => simp [String.intercalate_cons_cons, ih, String.append_assoc]

theorem display_eq_intercalate (p : Production τ ν) :
    p.display = " ".intercalate p.writtenNames := by
  unfold display writtenNames
  rw [intercalate_space]
  cases p.rhs with
  | nil =>
    rw [String.append_assoc]
    rfl
  | cons first rest =>
    simp only [List.map_cons, List.map_map, String.join_cons, String.append_assoc]
    rfl

/-- Names without spaces can be told from the written form. -/
theorem writtenNames_eq_of_display_eq {p q : Production τ ν}
    (hp : ∀ name ∈ p.writtenNames, ' ' ∉ name.toList)
    (hq : ∀ name ∈ q.writtenNames, ' ' ∉ name.toList) (h : p.display = q.display) :
    p.writtenNames = q.writtenNames := by
  have hsplit : ∀ {r : Production τ ν}, (∀ name ∈ r.writtenNames, ' ' ∉ name.toList) →
      r.display.toList.splitOn ' ' = r.writtenNames.map String.toList := by
    intro r hr
    rw [display_eq_intercalate, String.toList_intercalate]
    apply List.splitOn_intercalate
    · intro text htext
      obtain ⟨name, hname, rfl⟩ := List.mem_map.mp htext
      exact hr name hname
    · simp [writtenNames]
  have hnames := (hsplit hp).symm.trans (h ▸ hsplit hq)
  exact (List.map_inj_right fun _ _ => String.toList_injective).mp hnames

/-- A symbol with the name of two quotes is all of the right-hand side, which is then written
like an empty one. -/
def LooksEmpty (p : Production τ ν) : Prop :=
  ∃ symbol, p.rhs = [symbol] ∧ symbol.display = epsilonName

end Production

/-- Symbols with names. No name holds a space, and no name stands for two symbols, of one kind
or of both. -/
structure Vocabulary (τ ν : Type) [ToString τ] [ToString ν] where
  symbols : Set (Symbol τ ν)
  spaceless : ∀ symbol ∈ symbols, ' ' ∉ symbol.display.toList
  eq_of_display_eq : ∀ symbol ∈ symbols, ∀ other ∈ symbols, symbol.display = other.display →
    symbol = other

namespace Vocabulary

/-- Names that stand for themselves, none of them for a terminal and for a nonterminal. -/
def ofNames (terminals nonterminals : Set String)
    (spaceless : ∀ name, name ∈ terminals ∨ name ∈ nonterminals → ' ' ∉ name.toList)
    (disjoint : ∀ name ∈ terminals, name ∉ nonterminals) : Vocabulary String String where
  symbols
    | .terminal name => name ∈ terminals
    | .nonterminal name => name ∈ nonterminals
  spaceless symbol hsymbol := by
    cases symbol with
    | terminal name => exact spaceless name (Or.inl hsymbol)
    | nonterminal name => exact spaceless name (Or.inr hsymbol)
  eq_of_display_eq symbol hsymbol other hother heq := by
    cases symbol with
    | terminal name =>
      cases other with
      | terminal name' => exact congrArg Symbol.terminal heq
      | nonterminal name' =>
        obtain rfl : name = name' := heq
        exact absurd hother (disjoint name hsymbol)
    | nonterminal name =>
      cases other with
      | terminal name' =>
        obtain rfl : name = name' := heq
        exact absurd hsymbol (disjoint name hother)
      | nonterminal name' => exact congrArg Symbol.nonterminal heq

section OfNames

variable {terminals nonterminals : Set String}
  {spaceless : ∀ name, name ∈ terminals ∨ name ∈ nonterminals → ' ' ∉ name.toList}
  {disjoint : ∀ name ∈ terminals, name ∉ nonterminals} {name : String}

@[simp]
theorem terminal_mem_ofNames :
    .terminal name ∈ (ofNames terminals nonterminals spaceless disjoint).symbols ↔
      name ∈ terminals := Iff.rfl

@[simp]
theorem nonterminal_mem_ofNames :
    .nonterminal name ∈ (ofNames terminals nonterminals spaceless disjoint).symbols ↔
      name ∈ nonterminals := Iff.rfl

end OfNames

variable [ToString τ] [ToString ν] {V : Vocabulary τ ν}

theorem eq_of_map_display_eq {rhs rhs' : List (Symbol τ ν)} (h : ∀ symbol ∈ rhs, symbol ∈ V.symbols)
    (h' : ∀ symbol ∈ rhs', symbol ∈ V.symbols)
    (hnames : rhs.map Symbol.display = rhs'.map Symbol.display) : rhs = rhs' := by
  induction rhs generalizing rhs' with
  | nil => exact (List.map_eq_nil_iff.mp hnames.symm).symm
  | cons symbol rest ih =>
    cases rhs' with
    | nil => cases hnames
    | cons symbol' rest' =>
      obtain ⟨hname, hrest⟩ := List.cons.inj hnames
      obtain ⟨hsymbol, hmore⟩ := List.forall_mem_cons.mp h
      obtain ⟨hsymbol', hmore'⟩ := List.forall_mem_cons.mp h'
      rw [V.eq_of_display_eq symbol hsymbol symbol' hsymbol' hname, ih hmore hmore' hrest]

end Vocabulary

namespace Production

variable [ToString τ] [ToString ν] {V : Vocabulary τ ν} {p q : Production τ ν}

/-- All symbols of the production are in the vocabulary. -/
structure IsOver (p : Production τ ν) (V : Vocabulary τ ν) : Prop where
  lhs : .nonterminal p.lhs ∈ V.symbols
  rhs : ∀ symbol ∈ p.rhs, symbol ∈ V.symbols

theorem IsOver.spaceless (h : p.IsOver V) : ∀ name ∈ p.writtenNames, ' ' ∉ name.toList := by
  intro name hname
  unfold writtenNames at hname
  rcases List.mem_cons.mp hname with rfl | hname
  · exact V.spaceless _ h.lhs
  · rcases List.mem_cons.mp hname with rfl | hname
    · decide
    · split at hname
      · rw [List.mem_singleton.mp hname]
        decide
      · obtain ⟨symbol, hsymbol, rfl⟩ := List.mem_map.mp hname
        exact V.spaceless symbol (h.rhs symbol hsymbol)

/-- The names behind the arrow are those of the symbols, or there are no symbols. -/
theorem looksEmpty_of_singleton {rhs : List (Symbol τ ν)} (hrhs : p.rhs = rhs)
    (hnames : rhs.map Symbol.display = [epsilonName]) : p.LooksEmpty := by
  obtain ⟨symbol, rfl, hname⟩ := List.map_eq_singleton_iff.mp hnames
  exact ⟨symbol, hrhs, hname⟩

/-- A production can be read off its written form. -/
theorem IsOver.eq_of_display_eq (hp : p.IsOver V) (hq : q.IsOver V) (hlooks : ¬ p.LooksEmpty)
    (hlooks' : ¬ q.LooksEmpty) (h : p.display = q.display) : p = q := by
  have hnames := writtenNames_eq_of_display_eq hp.spaceless hq.spaceless h
  obtain ⟨hlhs, hrest⟩ := List.cons.inj hnames
  obtain ⟨-, hrest⟩ := List.cons.inj hrest
  have hsame : p.lhs = q.lhs := Symbol.nonterminal.inj (V.eq_of_display_eq _ hp.lhs _ hq.lhs hlhs)
  suffices hrhs : p.rhs = q.rhs by
    cases p
    cases q
    simp_all
  cases hempty : p.rhs with
  | nil =>
    cases hempty' : q.rhs with
    | nil => rfl
    | cons symbol' rest' =>
      rw [hempty, hempty'] at hrest
      exact absurd (looksEmpty_of_singleton hempty' hrest.symm) hlooks'
  | cons symbol rest =>
    cases hempty' : q.rhs with
    | nil =>
      rw [hempty, hempty'] at hrest
      exact absurd (looksEmpty_of_singleton hempty hrest) hlooks
    | cons symbol' rest' =>
      rw [hempty, hempty'] at hrest
      exact V.eq_of_map_display_eq (hempty ▸ hp.rhs) (hempty' ▸ hq.rhs) hrest

end Production

namespace Grammar

variable {g : Grammar τ ν}

section Written

variable [ToString τ] [ToString ν]

/-- The numbers of the productions with a written form. -/
def writtenAs (g : Grammar τ ν) (display : String) : Set Nat :=
  {index | ∃ p, g.production? index = some p ∧ p.display = display}

theorem find?_eq_some_iff {display : String} {index : Nat} :
    g.find? display = some index ↔ IsGreatest (g.writtenAs display) index := by
  have hplaces : placesOf (fun p => p.display = display) g.productions = g.writtenAs display := by
    ext place
    simp [placesOf, writtenAs, production?]
  rw [find?, lastIndex?_eq_some_iff, hplaces]

theorem exists_find?_iff {display : String} :
    (∃ index, g.find? display = some index) ↔ ∃ p ∈ g.productions, p.display = display := by
  simp only [find?, exists_lastIndex?_iff, decide_eq_true_eq]

end Written

/-- The numbers of the productions that are equal to one. -/
def numbersOf (g : Grammar τ ν) (p : Production τ ν) : Set Nat :=
  {index | g.production? index = some p}

section Equal

variable [DecidableEq τ] [DecidableEq ν] {p : Production τ ν}

theorem position?_eq_some_iff {index : Nat} :
    g.position? p = some index ↔ IsLeast (g.numbersOf p) index := by
  simp only [position?, List.findIdx?_eq_some_iff_getElem, decide_eq_true_eq]
  constructor
  · rintro ⟨hlt, hequal, hbefore⟩
    refine ⟨List.getElem?_eq_some_iff.mpr ⟨hlt, hequal⟩, fun place hplace => ?_⟩
    obtain ⟨hplace, hsame⟩ := List.getElem?_eq_some_iff.mp hplace
    exact Nat.le_of_not_lt fun hearlier => hbefore place hearlier hsame
  · rintro ⟨hindex, hleast⟩
    obtain ⟨hlt, hequal⟩ := List.getElem?_eq_some_iff.mp hindex
    refine ⟨hlt, hequal, fun place hearlier hsame => ?_⟩
    have hplace : place ∈ g.numbersOf p :=
      List.getElem?_eq_some_iff.mpr ⟨Nat.lt_trans hearlier hlt, hsame⟩
    exact absurd (hleast hplace) (Nat.not_le_of_lt hearlier)

theorem exists_position?_iff : (∃ index, g.position? p = some index) ↔ p ∈ g.productions := by
  rw [← Option.isSome_iff_exists, position?, List.findIdx?_isSome]
  simp

end Equal

/-- Over a vocabulary the productions that are written like one are those equal to it. -/
theorem writtenAs_display [ToString τ] [ToString ν] {V : Vocabulary τ ν} {p : Production τ ν}
    (hproductions : ∀ q ∈ g.productions, q.IsOver V ∧ ¬ q.LooksEmpty) (hp : p.IsOver V)
    (hlooks : ¬ p.LooksEmpty) : g.writtenAs p.display = g.numbersOf p := by
  ext index
  constructor
  · rintro ⟨q, hq, hdisplay⟩
    obtain ⟨hover, hlooks'⟩ := hproductions q (List.mem_of_getElem? hq)
    rw [hover.eq_of_display_eq hp hlooks' hlooks hdisplay] at hq
    exact hq
  · intro hindex
    exact ⟨p, hindex, rfl⟩

end Grammar

/-- A grammar with an index, in which the written forms have the numbers of productions. -/
structure IndexedGrammar (τ ν : Type) extends Grammar τ ν where
  byDisplay : Dictionary String Nat := {}

namespace IndexedGrammar

variable [ToString τ] [ToString ν]

/-- The number of a new production, and the grammar with it. The number replaces that of an
earlier production that is written alike. -/
def push (g : IndexedGrammar τ ν) (p : Production τ ν) : Nat × IndexedGrammar τ ν :=
  (g.size, ⟨g.toGrammar.push p, g.byDisplay.set p.display g.size⟩)

/-- The numbers of new productions, and the grammar with all of them. -/
def pushAll (g : IndexedGrammar τ ν) : List (Production τ ν) → List Nat × IndexedGrammar τ ν
  | [] => ([], g)
  | p :: rest =>
    let (index, g) := g.push p
    let (indices, g) := g.pushAll rest
    (index :: indices, g)

/-- The number that a written form has in the index. -/
def find? (g : IndexedGrammar τ ν) (display : String) : Option Nat := g.byDisplay.get? display

/-- The index finds what a search finds. -/
def IsInStep (g : IndexedGrammar τ ν) : Prop :=
  ∀ display, g.find? display = g.toGrammar.find? display

theorem isInStep_push {g : IndexedGrammar τ ν} (h : g.IsInStep) (p : Production τ ν) :
    (g.push p).2.IsInStep := by
  intro display
  have hsearch : (g.push p).2.toGrammar.find? display =
      if p.display = display then some g.size else g.toGrammar.find? display := by
    refine (lastIndex?_append_singleton g.productions p).trans ?_
    simp only [decide_eq_true_eq]
    rfl
  rw [hsearch]
  change (g.byDisplay.set p.display g.size).get? display = _
  split
  · next heq => rw [heq, Dictionary.get?_set_self]
  · next hne => rw [Dictionary.get?_set_of_ne _ _ (Ne.symm hne), ← h display]; rfl

theorem isInStep_pushAll {g : IndexedGrammar τ ν} (h : g.IsInStep) (ps : List (Production τ ν)) :
    (g.pushAll ps).2.IsInStep := by
  induction ps generalizing g with
  | nil => exact h
  | cons p rest ih => exact ih (isInStep_push h p)

theorem productions_pushAll (g : IndexedGrammar τ ν) (ps : List (Production τ ν)) :
    (g.pushAll ps).2.productions = g.productions ++ ps := by
  induction ps generalizing g with
  | nil => exact (List.append_nil _).symm
  | cons p rest ih =>
    refine (ih (g.push p).2).trans ?_
    exact (List.append_cons _ _ _).symm

theorem indices_pushAll (g : IndexedGrammar τ ν) (ps : List (Production τ ν)) :
    (g.pushAll ps).1 = List.range' g.size ps.length := by
  induction ps generalizing g with
  | nil => rfl
  | cons p rest ih =>
    have hsize : (g.push p).2.size = g.size + 1 := by
      simp [push, Grammar.size, Grammar.push]
    rw [List.length_cons, List.range'_succ, ← hsize, ← ih]
    rfl

/-- Whatever productions are added, their numbers are given in order, and what is added later
changes none of those that are there. The index finds exactly the written forms of the
productions, each with the last number, as a search through the productions does, and a
production is found by itself with the first number. If the productions are over a vocabulary
and none of them looks empty, a production of that sort is found by its written form exactly if
it is found by itself, and both numbers are its own. -/
theorem lookups_agree [DecidableEq τ] [DecidableEq ν] (added : List (Production τ ν)) :
    let (indices, g) := pushAll ({} : IndexedGrammar τ ν) added
    (indices = List.range added.length ∧ (∀ index, g.production? index = added[index]?) ∧
        ∀ later index, index < g.size →
          (g.pushAll later).2.production? index = g.production? index) ∧
      (∀ display, g.find? display = g.toGrammar.find? display ∧
        ((∃ index, g.find? display = some index) ↔ ∃ p ∈ added, p.display = display) ∧
        ∀ index, g.find? display = some index ↔ IsGreatest (g.writtenAs display) index) ∧
      (∀ p, ((∃ index, g.position? p = some index) ↔ p ∈ added) ∧
        ∀ index, g.position? p = some index ↔ IsLeast (g.numbersOf p) index) ∧
      ∀ V : Vocabulary τ ν, (∀ q ∈ added, q.IsOver V ∧ ¬ q.LooksEmpty) →
        ∀ p : Production τ ν, p.IsOver V → ¬ p.LooksEmpty →
          ((∃ index, g.find? p.display = some index) ↔ ∃ index, g.position? p = some index) ∧
          ∀ first last, g.position? p = some first → g.find? p.display = some last →
            g.production? first = some p ∧ g.production? last = some p ∧ first ≤ last := by
  generalize hpushed : pushAll ({} : IndexedGrammar τ ν) added = pushed
  obtain ⟨indices, g⟩ := pushed
  have hadded : g.productions = added := by
    have h := productions_pushAll ({} : IndexedGrammar τ ν) added
    rwa [hpushed] at h
  have hstep : g.IsInStep := by
    have h := isInStep_pushAll (g := ({} : IndexedGrammar τ ν)) (fun _ => rfl) added
    rwa [hpushed] at h
  subst hadded
  refine ⟨⟨?_, fun _ => rfl, ?_⟩, ?_, ?_, ?_⟩
  · have h := indices_pushAll ({} : IndexedGrammar τ ν) g.productions
    rw [hpushed] at h
    exact h.trans List.range_eq_range'.symm
  · intro later index hindex
    simp only [Grammar.production?, productions_pushAll]
    exact List.getElem?_append_left hindex
  · intro display
    rw [hstep display]
    exact ⟨rfl, Grammar.exists_find?_iff, fun _ => Grammar.find?_eq_some_iff⟩
  · exact fun p => ⟨Grammar.exists_position?_iff, fun _ => Grammar.position?_eq_some_iff⟩
  · intro V hproductions p hp hlooks
    have hsame := Grammar.writtenAs_display hproductions hp hlooks
    rw [hstep p.display]
    refine ⟨?_, ?_⟩
    · rw [Grammar.exists_find?_iff, Grammar.exists_position?_iff]
      constructor
      · rintro ⟨q, hq, hdisplay⟩
        obtain ⟨hover, hlooks'⟩ := hproductions q hq
        rwa [← hover.eq_of_display_eq hp hlooks' hlooks hdisplay]
      · exact fun hmem => ⟨p, hmem, rfl⟩
    · intro first last hfirst hlast
      rw [Grammar.position?_eq_some_iff] at hfirst
      rw [Grammar.find?_eq_some_iff, hsame] at hlast
      exact ⟨hfirst.1, hlast.1, hfirst.2 hlast.1⟩

/-- A production that is written with two arrows. -/
def twoArrows : Production String String := ⟨"S", [.terminal "->", .nonterminal "S"]⟩

/-- Its names, and one that it does not have. -/
def arrowNames : Vocabulary String String :=
  .ofNames {"->", ""} {"S"} (by rintro name ((rfl | rfl) | rfl) <;> decide) (by simp)

theorem lookups_agree_twoArrows :
    let added : List (Production String String) := [twoArrows, ⟨"S", []⟩, twoArrows]
    let g := (pushAll ({} : IndexedGrammar String String) added).2
    (∀ q ∈ added, q.IsOver arrowNames ∧ ¬ q.LooksEmpty) ∧ twoArrows.IsOver arrowNames ∧
      ¬ twoArrows.LooksEmpty ∧ 0 < g.size ∧
      (g.pushAll [⟨"S", []⟩]).2.production? 0 = g.production? 0 ∧
      g.position? twoArrows = some 0 ∧ g.find? twoArrows.display = some 2 ∧
      g.production? 0 = some twoArrows ∧ g.production? 2 = some twoArrows := by
  intro added g
  have harrows : twoArrows.IsOver arrowNames ∧ ¬ twoArrows.LooksEmpty :=
    ⟨⟨by simp [twoArrows, arrowNames], by simp [twoArrows, arrowNames]⟩,
      by simp [twoArrows, Production.LooksEmpty]⟩
  have hadded : ∀ q ∈ added, q.IsOver arrowNames ∧ ¬ q.LooksEmpty := by
    have hempty : (⟨"S", []⟩ : Production String String).IsOver arrowNames :=
      ⟨by simp [arrowNames], by simp⟩
    simp only [added, List.forall_mem_cons]
    exact ⟨harrows, ⟨hempty, by simp [Production.LooksEmpty]⟩, harrows, by simp⟩
  have hsize : 0 < g.size := by decide
  have hposition : g.position? twoArrows = some 0 := by decide
  have hfind : g.find? twoArrows.display = some 2 := by decide
  obtain ⟨⟨-, -, hlater⟩, -, -, hagree⟩ := lookups_agree added
  obtain ⟨-, hsame⟩ := hagree arrowNames hadded twoArrows harrows.1 harrows.2
  obtain ⟨hfirst, hlast, -⟩ := hsame 0 2 hposition hfind
  exact ⟨hadded, harrows.1, harrows.2, hsize, hlater _ 0 hsize, hposition, hfind, hfirst, hlast⟩

/-- A nonterminal with the name of two quotes, and another one. -/
def quoteNames : Vocabulary String String :=
  .ofNames ∅ {"S", "''"}
    (by rintro name (h | rfl | rfl); exacts [absurd h id, by decide, by decide]) (by simp)

/-- Beside a production that looks empty, the empty one is found by its written form and not by
itself. No name is empty or that of a terminal. -/
theorem lookups_differ_on_quotes :
    let looksEmpty : Production String String := ⟨"S", [.nonterminal "''"]⟩
    let empty : Production String String := ⟨"S", []⟩
    let g := (pushAll ({} : IndexedGrammar String String) [looksEmpty]).2
    (∀ symbol ∈ quoteNames.symbols, symbol.display ≠ "" ∧ symbol ≠ .terminal "''") ∧
      looksEmpty.IsOver quoteNames ∧ empty.IsOver quoteNames ∧
      g.find? empty.display = some 0 ∧ g.position? empty = none := by
  refine ⟨?_, ⟨?_, ?_⟩, ⟨?_, ?_⟩, by decide, by decide⟩
  · rintro (name | name) hname
    · exact absurd hname id
    · rcases hname with rfl | rfl
      · decide
      · decide
  · simp [quoteNames]
  · simp [quoteNames]
  · simp [quoteNames]
  · simp

end IndexedGrammar

end ShiftReduce
