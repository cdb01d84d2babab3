import Mathlib.Data.List.Forall2
import ShiftReduce.Proofs.Listings

/-!
Which texts are grammars, and what is wrong with the first line that is none. A line stands for
a production if its words are a nonterminal, an arrow and a right-hand side; otherwise it breaks
the rules in the order in which they are stated here. A text is a grammar exactly if every line
that is not left out stands for a production, and otherwise the reader tells what is wrong with
the first line that does not.
-/
namespace ShiftReduce

open Unicode Text

variable {τ ν : Type} {names : Naming τ ν}

section Results

variable {ε α : Type}

theorem map_nil_append (result : Except ε (List α)) : result.map ([] ++ ·) = result := by
  cases result with
  | ok list => rfl
  | error error => rfl

theorem map_append_map_cons (a : α) (front : List α) (result : Except ε (List α)) :
    (result.map (front ++ ·)).map (a :: ·) = result.map (a :: front ++ ·) := by
  cases result with
  | ok list => rfl
  | error error => rfl

/-- A result is what is described, if what is described is the result and something always
is. -/
theorem eq_iff_of_described {result : Except ε α} {Gives : α → Prop} {Fails : ε → Prop}
    (hgives : ∀ a, Gives a → result = .ok a)
    (hfails : ∀ error, Fails error → result = .error error)
    (hsome : (∃ a, Gives a) ∨ ∃ error, Fails error) :
    (∀ a, result = .ok a ↔ Gives a) ∧ ∀ error, result = .error error ↔ Fails error := by
  rcases hsome with ⟨a, ha⟩ | ⟨error, herror⟩
  · have hresult := hgives a ha
    constructor
    · intro b
      refine ⟨fun hb => ?_, hgives b⟩
      obtain rfl : a = b := Except.ok.inj (hresult.symm.trans hb)
      exact ha
    · intro error
      refine ⟨fun herror => ?_, hfails error⟩
      cases hresult.symm.trans herror
  · have hresult := hfails error herror
    constructor
    · intro a
      refine ⟨fun ha => ?_, hgives a⟩
      cases hresult.symm.trans ha
    · intro other
      refine ⟨fun hother => ?_, hfails other⟩
      obtain rfl : error = other := Except.error.inj (hresult.symm.trans hother)
      exact herror

end Results

namespace Naming

/-- The symbol that a name stands for on a right-hand side: a nonterminal rather than a terminal. -/
def rightSymbol? (names : Naming τ ν) (name : String) : Option (Symbol τ ν) :=
  ((names.nonterminal? name).map .nonterminal).or ((names.terminal? name).map .terminal)

/-- The names stand for the symbols, one for one. -/
def Resolves (names : Naming τ ν) : List String → List (Symbol τ ν) → Prop :=
  List.Forall₂ fun name symbol => names.rightSymbol? name = some symbol

/-- Unless names stand for symbols, one of them is the first that does not. -/
theorem resolves_or_exists_first (names : Naming τ ν) (words : List String) :
    (∃ symbols, names.Resolves words symbols) ∨
      ∃ before symbols name after, words = before ++ name :: after ∧
        names.Resolves before symbols ∧ names.rightSymbol? name = none := by
  induction words with
  | nil => exact .inl ⟨[], .nil⟩
  | cons word words ih =>
    cases hword : names.rightSymbol? word with
    | none => exact .inr ⟨[], [], word, words, rfl, .nil, hword⟩
    | some symbol =>
      rcases ih with ⟨symbols, hsymbols⟩ | ⟨before, symbols, name, after, rfl, hbefore, hname⟩
      · exact .inl ⟨symbol :: symbols, .cons hword hsymbols⟩
      · exact .inr ⟨word :: before, symbol :: symbols, name, after, rfl, .cons hword hbefore, hname⟩

end Naming

namespace Production

/-- The symbols of a right-hand side: those its names stand for, or none if the two quotes stand
alone and are no name. -/
inductive RightSide (names : Naming τ ν) : List String → List (Symbol τ ν) → Prop
  | symbols {words : List String} {rhs : List (Symbol τ ν)} (hwords : names.Resolves words rhs) :
      RightSide names words rhs
  | nothing (hnone : names.rightSymbol? epsilonName = none) : RightSide names [epsilonName] []

/-- What is wrong with the names of a right-hand side on a line: the first that stands for no
symbol is the two quotes, with other names beside them, or it is any other name. -/
inductive Misnames (names : Naming τ ν) (line : String) : List String → NotationError → Prop
  | epsilon {before after : List String} {symbols : List (Symbol τ ν)}
      (hbefore : names.Resolves before symbols) (hnone : names.rightSymbol? epsilonName = none)
      (hothers : before ++ after ≠ []) :
      Misnames names line (before ++ epsilonName :: after) (.epsilonNotAlone line)
  | symbol {before after : List String} {symbols : List (Symbol τ ν)} {name : String}
      (hbefore : names.Resolves before symbols) (hnone : names.rightSymbol? name = none)
      (hname : name ≠ epsilonName) :
      Misnames names line (before ++ name :: after) (.invalidSymbol name line)

/-- The production that the words of a line stand for. -/
inductive StandsIn (names : Naming τ ν) : List String → Production τ ν → Prop
  | intro {first name : String} {rest : List String} {lhs : ν} {rhs : List (Symbol τ ν)}
      (hlhs : names.nonterminal? first = some lhs) (hrhs : RightSide names (name :: rest) rhs) :
      StandsIn names (first :: "->" :: name :: rest) ⟨lhs, rhs⟩

/-- What is wrong with the words of a line: the first of the rules that they break. -/
inductive Violates (names : Naming τ ν) (line : String) : List String → NotationError → Prop
  | short {words : List String} (hwords : words.length < 3) :
      Violates names line words (.shortProduction line)
  | leftHandSide {first arrow name : String} {rest : List String}
      (hlhs : names.nonterminal? first = none) :
      Violates names line (first :: arrow :: name :: rest) (.leftHandSide first line)
  | arrow {first arrow name : String} {rest : List String} {lhs : ν}
      (hlhs : names.nonterminal? first = some lhs) (harrow : arrow ≠ "->") :
      Violates names line (first :: arrow :: name :: rest) (.missingArrow line)
  | rightHandSide {first name : String} {rest : List String} {lhs : ν} {error : NotationError}
      (hlhs : names.nonterminal? first = some lhs)
      (hrhs : Misnames names line (name :: rest) error) :
      Violates names line (first :: "->" :: name :: rest) error

section RightSides

variable {line : String} {isAlone : Bool} {words : List String} {rhs : List (Symbol τ ν)}

/-- The first name decides by its symbol what becomes of a right-hand side. -/
theorem symbolsOf_cons (name : String) (rest : List String) :
    symbolsOf names line isAlone (name :: rest) =
      match names.rightSymbol? name with
      | some symbol => (symbolsOf names line isAlone rest).map (symbol :: ·)
      | none =>
        if name ≠ epsilonName then .error (.invalidSymbol name line)
        else if isAlone then symbolsOf names line isAlone rest
        else .error (.epsilonNotAlone line) := by
  rw [symbolsOf, Naming.rightSymbol?]
  cases names.nonterminal? name with
  | some nonterminal => rfl
  | none =>
    cases names.terminal? name with
    | some terminal => rfl
    | none => rfl

/-- Names that stand for symbols are replaced by them, whatever follows. -/
theorem symbolsOf_append {before : List String} {symbols : List (Symbol τ ν)}
    (h : names.Resolves before symbols) (rest : List String) :
    symbolsOf names line isAlone (before ++ rest) =
      (symbolsOf names line isAlone rest).map (symbols ++ ·) := by
  induction h with
  | nil => rw [List.nil_append, map_nil_append]
  | cons hname hnames ih =>
    rw [List.cons_append, symbolsOf_cons, hname, ih]
    exact map_append_map_cons _ _ _

theorem RightSide.symbolsOf_eq {name : String} {rest : List String}
    (h : RightSide names (name :: rest) rhs) :
    symbolsOf names line rest.isEmpty (name :: rest) = .ok rhs := by
  cases h with
  | symbols hwords =>
    rw [← List.append_nil (name :: rest), symbolsOf_append hwords]
    simp [symbolsOf, Except.map]
  | nothing hnone =>
    rw [symbolsOf_cons, hnone]
    rfl

theorem Misnames.symbolsOf_eq {name : String} {rest : List String} {error : NotationError}
    (h : Misnames names line (name :: rest) error) :
    symbolsOf names line rest.isEmpty (name :: rest) = .error error := by
  generalize hwords : name :: rest = words at h
  cases h with
  | @epsilon before after symbols hbefore hnone hothers =>
    -- With other names beside them the two quotes are not alone.
    have halone : rest.isEmpty = false := by
      cases before with
      | nil =>
        obtain ⟨-, rfl⟩ := List.cons.inj hwords
        simpa using hothers
      | cons first before =>
        obtain ⟨-, rfl⟩ := List.cons.inj hwords
        simp
    rw [symbolsOf_append hbefore, symbolsOf_cons, hnone, halone]
    rfl
  | symbol hbefore hnone hname =>
    rw [symbolsOf_append hbefore, symbolsOf_cons, hnone]
    simp only [if_pos hname]
    rfl

/-- A right-hand side has symbols, or something is wrong with its names. -/
theorem rightSide_or_misnames (names : Naming τ ν) (line : String) (words : List String) :
    (∃ rhs, RightSide names words rhs) ∨ ∃ error, Misnames names line words error := by
  rcases Naming.resolves_or_exists_first names words with
    ⟨symbols, hsymbols⟩ | ⟨before, symbols, name, after, rfl, hbefore, hnone⟩
  · exact .inl ⟨symbols, .symbols hsymbols⟩
  · by_cases hname : name = epsilonName
    · subst hname
      by_cases hothers : before ++ after = []
      · obtain ⟨rfl, rfl⟩ := List.append_eq_nil_iff.mp hothers
        exact .inl ⟨[], .nothing hnone⟩
      · exact .inr ⟨_, .epsilon hbefore hnone hothers⟩
    · exact .inr ⟨_, .symbol hbefore hnone hname⟩

end RightSides

section Lines

variable {line : List Char} {p : Production τ ν} {error : NotationError}

theorem StandsIn.ofLine_eq (h : StandsIn names ((words line).map String.ofList) p) :
    ofLine names line = .ok p := by
  generalize hwords : (words line).map String.ofList = parts at h
  cases h with
  | intro hlhs hrhs =>
    simp only [ofLine, hwords, hlhs, ne_eq, not_true_eq_false, if_false, hrhs.symbolsOf_eq]
    rfl

theorem Violates.ofLine_eq
    (h : Violates names (String.ofList line) ((words line).map String.ofList) error) :
    ofLine names line = .error error := by
  generalize hwords : (words line).map String.ofList = parts at h
  cases h with
  | short hshort =>
    -- With fewer than three words no other case applies.
    unfold ofLine
    rw [hwords]
    match parts, hshort with
    | [], _ => rfl
    | [_], _ => rfl
    | [_, _], _ => rfl
  | leftHandSide hlhs => simp only [ofLine, hwords, hlhs]
  | arrow hlhs harrow => simp only [ofLine, hwords, hlhs, if_pos harrow]
  | rightHandSide hlhs hrhs =>
    simp only [ofLine, hwords, hlhs, ne_eq, not_true_eq_false, if_false, hrhs.symbolsOf_eq]
    rfl

/-- The words of a line stand for a production, or they break a rule. -/
theorem standsIn_or_violates (names : Naming τ ν) (line : String) (words : List String) :
    (∃ p, StandsIn names words p) ∨ ∃ error, Violates names line words error := by
  match words with
  | [] => exact .inr ⟨_, .short (by simp)⟩
  | [_] => exact .inr ⟨_, .short (by simp)⟩
  | [_, _] => exact .inr ⟨_, .short (by simp)⟩
  | first :: arrow :: name :: rest =>
    cases hlhs : names.nonterminal? first with
    | none => exact .inr ⟨_, .leftHandSide hlhs⟩
    | some lhs =>
      by_cases harrow : arrow = "->"
      · subst harrow
        rcases rightSide_or_misnames names line (name :: rest) with
          ⟨rhs, hrhs⟩ | ⟨error, herror⟩
        · exact .inl ⟨⟨lhs, rhs⟩, .intro hlhs hrhs⟩
        · exact .inr ⟨error, .rightHandSide hlhs herror⟩
      · exact .inr ⟨_, .arrow hlhs harrow⟩

end Lines

end Production

namespace Grammar

/-- A line of blanks, or one that starts with a hash. -/
def IsIdle (line : List Char) : Prop := (∀ c ∈ line, isBlank c = true) ∨ ∃ rest, line = '#' :: rest

/-- Lines that stand for some productions in their order, one for each line that is not idle. -/
inductive Reads (names : Naming τ ν) : List (List Char) → List (Production τ ν) → Prop
  | nil : Reads names [] []
  | idle {line : List Char} {lines : List (List Char)} {productions : List (Production τ ν)}
      (hline : IsIdle line) (hrest : Reads names lines productions) :
      Reads names (line :: lines) productions
  | production {line : List Char} {lines : List (List Char)} {p : Production τ ν}
      {productions : List (Production τ ν)} (hline : ¬IsIdle line)
      (hp : p.StandsIn names ((words line).map String.ofList))
      (hrest : Reads names lines productions) :
      Reads names (line :: lines) (p :: productions)

/-- The first line that is neither idle nor stands for a production breaks a rule. -/
inductive Breaks (names : Naming τ ν) : List (List Char) → NotationError → Prop
  | intro {before after : List (List Char)} {line : List Char}
      {productions : List (Production τ ν)} {error : NotationError}
      (hbefore : Reads names before productions) (hline : ¬IsIdle line)
      (herror : Production.Violates names (String.ofList line)
        ((words line).map String.ofList) error) :
      Breaks names (before ++ line :: after) error

section Outcomes

variable {before lines : List (List Char)} {productions : List (Production τ ν)}

/-- The lines that a reader does not leave out. -/
def workingLines (lines : List (List Char)) : List (List Char) :=
  lines.filter fun line => !isIdleLine line

theorem workingLines_cons_of_isIdle {line : List Char} (h : IsIdle line)
    (rest : List (List Char)) : workingLines (line :: rest) = workingLines rest :=
  List.filter_cons_of_neg (by simpa using isIdleLine_eq_true_iff.mpr h)

theorem workingLines_cons_of_not_isIdle {line : List Char} (h : ¬IsIdle line)
    (rest : List (List Char)) : workingLines (line :: rest) = line :: workingLines rest :=
  List.filter_cons_of_pos (by
    rw [Bool.not_eq_true', ← Bool.not_eq_true, isIdleLine_eq_true_iff]
    exact h)

/-- Lines that stand for productions are replaced by them, whatever follows. -/
theorem Reads.productionsOf_append (h : Reads names before productions)
    (rest : List (List Char)) :
    productionsOf names (workingLines (before ++ rest)) =
      (productionsOf names (workingLines rest)).map (productions ++ ·) := by
  induction h with
  | nil => rw [List.nil_append, map_nil_append]
  | idle hline hrest ih => rw [List.cons_append, workingLines_cons_of_isIdle hline, ih]
  | production hline hp hrest ih =>
    rw [List.cons_append, workingLines_cons_of_not_isIdle hline, productionsOf, hp.ofLine_eq]
    dsimp only
    rw [ih]
    exact map_append_map_cons _ _ _

theorem Reads.productionsOf_eq (h : Reads names lines productions) :
    productionsOf names (workingLines lines) = .ok productions := by
  rw [← List.append_nil lines, h.productionsOf_append]
  simp [workingLines, productionsOf, Except.map]

theorem Breaks.productionsOf_eq {error : NotationError} (h : Breaks names lines error) :
    productionsOf names (workingLines lines) = .error error := by
  cases h with
  | intro hbefore hline herror =>
    rw [hbefore.productionsOf_append, workingLines_cons_of_not_isIdle hline, productionsOf,
      herror.ofLine_eq]
    rfl

/-- Lines stand for productions, or the first that does not breaks a rule. -/
theorem reads_or_breaks (names : Naming τ ν) (lines : List (List Char)) :
    (∃ productions, Reads names lines productions) ∨ ∃ error, Breaks names lines error := by
  induction lines with
  | nil => exact .inl ⟨[], .nil⟩
  | cons line lines ih =>
    by_cases hline : IsIdle line
    · rcases ih with ⟨productions, hreads⟩ | ⟨error, hbefore, hother, herror⟩
      · exact .inl ⟨productions, .idle hline hreads⟩
      · exact .inr ⟨error, .intro (.idle hline hbefore) hother herror⟩
    · rcases Production.standsIn_or_violates names (String.ofList line)
        ((words line).map String.ofList) with ⟨p, hp⟩ | ⟨error, herror⟩
      · rcases ih with ⟨productions, hreads⟩ | ⟨error, hbefore, hother, herror⟩
        · exact .inl ⟨p :: productions, .production hline hp hreads⟩
        · exact .inr ⟨error, .intro (.production hline hp hbefore) hother herror⟩
      · exact .inr ⟨error, .intro .nil hline herror⟩

theorem exists_reads_iff :
    (∃ productions, Reads names lines productions) ↔
      ∀ line ∈ lines, ¬IsIdle line →
        ∃ p : Production τ ν, p.StandsIn names ((words line).map String.ofList) := by
  induction lines with
  | nil => exact ⟨fun _ => by simp, fun _ => ⟨[], .nil⟩⟩
  | cons line lines ih =>
    rw [List.forall_mem_cons, ← ih]
    constructor
    · rintro ⟨productions, hreads⟩
      cases hreads with
      | idle hline hrest => exact ⟨fun hworking => absurd hline hworking, productions, hrest⟩
      | production hline hp hrest => exact ⟨fun _ => ⟨_, hp⟩, _, hrest⟩
    · rintro ⟨hworking, productions, hrest⟩
      by_cases hline : IsIdle line
      · exact ⟨productions, .idle hline hrest⟩
      · obtain ⟨p, hp⟩ := hworking hline
        exact ⟨p :: productions, .production hline hp hrest⟩

end Outcomes

/-- A text is a grammar exactly if every line that is neither blank nor starts with a hash stands
for a production, and then it is the grammar of these productions; and an error is exactly that
of the first rule that is broken on the first line that does not. -/
theorem ofText_tells_grammars_and_violations (names : Naming τ ν) (text : List Char) :
    ((∃ g, ofText names text = .ok g) ↔
      ∀ line ∈ Text.lines text, ¬IsIdle line →
        ∃ p : Production τ ν, p.StandsIn names ((words line).map String.ofList)) ∧
    (∀ g, ofText names text = .ok g ↔ Reads names (Text.lines text) g.productions) ∧
      ∀ error, ofText names text = .error error ↔ Breaks names (Text.lines text) error := by
  have hiff : (∀ g, ofText names text = .ok g ↔ Reads names (Text.lines text) g.productions) ∧
      ∀ error, ofText names text = .error error ↔ Breaks names (Text.lines text) error := by
    apply eq_iff_of_described
    · intro g hreads
      rw [ofText, ← workingLines, hreads.productionsOf_eq]
      rfl
    · intro error hbreaks
      rw [ofText, ← workingLines, hbreaks.productionsOf_eq]
      rfl
    · rcases reads_or_breaks names (Text.lines text) with ⟨productions, hreads⟩ | hbreaks
      · exact .inl ⟨⟨productions⟩, hreads⟩
      · exact .inr hbreaks
  refine ⟨?_, hiff⟩
  rw [← exists_reads_iff]
  constructor
  · rintro ⟨g, hg⟩
    exact ⟨g.productions, (hiff.1 g).mp hg⟩
  · rintro ⟨productions, hreads⟩
    exact ⟨⟨productions⟩, (hiff.1 ⟨productions⟩).mpr hreads⟩

/-- A name of both sorts is a nonterminal, the two quotes may stand alone, and of two faulty
lines the first is told, by its leftmost fault. -/
theorem ofText_tells_grammars_and_violations_mixed :
    Reads (.listed ["x", "S"] ["S", "T"]) (Text.lines "# start\r\nS -> x S\n \nT -> ''".toList)
        [⟨"S", [.terminal "x", .nonterminal "S"]⟩, ⟨"T", []⟩] ∧
      Breaks (.listed ["x", "S"] ["S", "T"])
        (Text.lines "S -> x\nT -> x '' y\nS x y".toList) (.epsilonNotAlone "T -> x '' y") :=
  ⟨((ofText_tells_grammars_and_violations _ _).2.1 ⟨_⟩).mp (by decide +kernel),
    ((ofText_tells_grammars_and_violations _ _).2.2 _).mp (by decide +kernel)⟩

end Grammar

end ShiftReduce
