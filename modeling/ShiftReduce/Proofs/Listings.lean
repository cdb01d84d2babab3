import ShiftReduce.Proofs.Cutting

/-!
Grammars in writing. If capitals tell nonterminals from terminals, productions whose names
show their kind and hold no blanks can be written down and read back: each production on a
line, in the order of the grammar, and lines that are left out anywhere between them. The
names that a reader takes from a text are of that sort, so every grammar that was read can
be shown and read again.
-/
namespace ShiftReduce

open Unicode Text

/-- A name that can stand between blanks. -/
def IsWord (name : String) : Prop := name ≠ "" ∧ ∀ c ∈ name.toList, isBlank c = false

theorem IsWord.toList_ne_nil {name : String} (h : IsWord name) : name.toList ≠ [] := by
  intro hnil
  exact h.1 (String.toList_inj.mp hnil)

theorem isWord_of_all {name : String} (hne : name ≠ "")
    (h : (name.toList.all fun c => !isBlank c) = true) : IsWord name :=
  ⟨hne, by simpa using h⟩

theorem isWord_of_mem_words {text word : List Char} (h : word ∈ words text) :
    IsWord (String.ofList word) := by
  constructor
  · intro hempty
    have hnil : (String.ofList word).toList = [] := by rw [hempty]; rfl
    rw [String.toList_ofList] at hnil
    exact ne_nil_of_mem_words h hnil
  · rw [String.toList_ofList]
    exact isBlank_of_mem_words h

/-- Names, each of them behind a space. -/
def spaced (names : List String) : List Char := names.flatMap fun name => ' ' :: name.toList

theorem words_append_spaced (front : List Char) {names : List String}
    (h : ∀ name ∈ names, IsWord name) :
    words (front ++ spaced names) = words front ++ names.map String.toList := by
  induction names generalizing front with
  | nil => simp [spaced]
  | cons name names ih =>
    have hname : IsWord name := h name List.mem_cons_self
    have hsplit : front ++ spaced (name :: names) = front ++ ' ' :: (name.toList ++ spaced names) := by
      simp [spaced]
    rw [hsplit, words_append_cons front isBlank_space,
      ih name.toList fun other hother => h other (List.mem_cons_of_mem _ hother),
      words_eq_singleton hname.toList_ne_nil hname.2]
    rfl

theorem isIdleLine_eq_true_iff {line : List Char} :
    isIdleLine line = true ↔ (∀ c ∈ line, isBlank c = true) ∨ ∃ rest, line = '#' :: rest := by
  rw [isIdleLine, Bool.or_eq_true, List.isEmpty_iff, trim_eq_nil_iff, beq_iff_eq,
    List.head?_eq_some_iff]

/-- A line that starts with neither a blank nor a hash is not left out. -/
theorem isIdleLine_cons {c : Char} (hblank : isBlank c = false) (hhash : c ≠ '#')
    (rest : List Char) : isIdleLine (c :: rest) = false := by
  rw [← Bool.not_eq_true, isIdleLine_eq_true_iff]
  rintro (hblanks | ⟨rest', heq⟩)
  · simp [hblanks c List.mem_cons_self] at hblank
  · exact hhash (List.cons.inj heq).1

/-- Blanks at the end of a line do not decide whether it is left out. -/
theorem isIdleLine_append_blanks (line : List Char) {blanks : List Char}
    (h : ∀ c ∈ blanks, isBlank c = true) : isIdleLine (line ++ blanks) = isIdleLine line := by
  have hall : (∀ c ∈ line ++ blanks, isBlank c = true) ↔ ∀ c ∈ line, isBlank c = true := by
    rw [List.forall_mem_append, and_iff_left h]
  rw [Bool.eq_iff_iff, isIdleLine_eq_true_iff, isIdleLine_eq_true_iff, hall]
  cases line with
  | nil => simp
  | cons c line => simp

theorem isIdleLine_dropReturn (line : List Char) : isIdleLine (dropReturn line) = isIdleLine line :=
  apply_dropReturn isIdleLine_append_blanks line

namespace Symbol

/-- The name shows what kind of symbol it stands for. -/
def IsWritable : Symbol String String → Prop
  | .terminal name => IsWord name ∧ isCapitalized name = false ∧ name ≠ epsilonName
  | .nonterminal name => IsWord name ∧ isCapitalized name = true

theorem IsWritable.isWord {symbol : Symbol String String} (h : symbol.IsWritable) :
    IsWord symbol.display := by
  cases symbol with
  | terminal name => exact h.1
  | nonterminal name => exact h.1

end Symbol

theorem Naming.nonterminal?_byCapitals_eq_some_iff {name nonterminal : String} :
    Naming.byCapitals.nonterminal? name = some nonterminal ↔
      name = nonterminal ∧ isCapitalized nonterminal = true := by
  unfold Naming.byCapitals
  dsimp only
  constructor
  · intro h
    split at h
    · next hcapital =>
      cases h
      exact ⟨rfl, hcapital⟩
    · cases h
  · rintro ⟨rfl, hcapital⟩
    rw [if_pos hcapital]

theorem Naming.terminal?_byCapitals_eq_some_iff {name terminal : String} :
    Naming.byCapitals.terminal? name = some terminal ↔
      name = terminal ∧ terminal ≠ "" ∧ terminal ≠ epsilonName ∧ isCapitalized terminal = false := by
  unfold Naming.byCapitals
  dsimp only
  constructor
  · intro h
    split at h
    · cases h
    · next hname =>
      cases h
      simp only [Bool.or_eq_true, not_or, Bool.not_eq_true, beq_iff_eq] at hname
      exact ⟨rfl, by simpa using hname.1.1, hname.1.2, hname.2⟩
  · rintro ⟨rfl, hne, hepsilon, hcapital⟩
    rw [if_neg]
    simp [hne, hepsilon, hcapital]

namespace Production

/-- The names show which symbols are nonterminals. -/
structure IsWritable (p : Production String String) : Prop where
  lhs : (Symbol.nonterminal p.lhs : Symbol String String).IsWritable
  rhs : ∀ symbol ∈ p.rhs, symbol.IsWritable

/-- The names behind the arrow. -/
def namesOf (p : Production String String) : List String :=
  match p.rhs with
  | [] => [epsilonName]
  | rhs => rhs.map Symbol.display

theorem toList_display (p : Production String String) :
    p.display.toList = p.lhs.toList ++ spaced ("->" :: p.namesOf) := by
  have harrow : ∀ names : List String, p.lhs.toList ++ spaced ("->" :: names) =
      (p.lhs ++ " ->").toList ++ spaced names := by
    intro names
    rw [String.toList_append, List.append_assoc]
    rfl
  rw [harrow, display, String.toList_append]
  unfold namesOf
  cases p.rhs with
  | nil => rfl
  | cons first rest =>
    simp [spaced, String.toList_join, List.flatMap_map, String.toList_append]
    rfl

variable {p : Production String String}

theorem IsWritable.isWord_of_mem_namesOf (h : p.IsWritable) :
    ∀ name ∈ p.namesOf, IsWord name := by
  intro name hname
  unfold namesOf at hname
  split at hname
  · rw [List.mem_singleton.mp hname]
    exact isWord_of_all (by decide) (by decide)
  · obtain ⟨symbol, hsymbol, rfl⟩ := List.mem_map.mp hname
    exact (h.rhs symbol hsymbol).isWord

theorem IsWritable.words_display (h : p.IsWritable) :
    (words p.display.toList).map String.ofList = p.lhs :: "->" :: p.namesOf := by
  have hlhs : IsWord p.lhs := h.lhs.1
  have hnames : ∀ name ∈ "->" :: p.namesOf, IsWord name := by
    intro name hname
    rcases List.mem_cons.mp hname with rfl | hname
    · exact isWord_of_all (by decide) (by decide)
    · exact h.isWord_of_mem_namesOf name hname
  rw [toList_display, words_append_spaced _ hnames,
    words_eq_singleton hlhs.toList_ne_nil hlhs.2]
  simp [String.ofList_toList]

/-- A line that shows a production is not left out. -/
theorem IsWritable.isIdleLine_display (h : p.IsWritable) (blanks : List Char) :
    isIdleLine (p.display.toList ++ blanks) = false := by
  obtain ⟨hword, hcapital⟩ := h.lhs
  rw [toList_display]
  unfold isCapitalized at hcapital
  cases hlhs : p.lhs.toList with
  | nil => exact absurd hlhs hword.toList_ne_nil
  | cons c rest =>
    rw [hlhs] at hcapital
    apply isIdleLine_cons
    · exact hword.2 c (hlhs ▸ List.mem_cons_self)
    · rintro rfl
      have hhash : isUppercase '#' = false := by decide
      simp [hhash] at hcapital

/-- The symbols of a right-hand side are found by their names. -/
theorem symbolsOf_map_display {rhs : List (Symbol String String)}
    (h : ∀ symbol ∈ rhs, symbol.IsWritable) (line : String) (isAlone : Bool) :
    symbolsOf .byCapitals line isAlone (rhs.map Symbol.display) = .ok rhs := by
  induction rhs with
  | nil => rfl
  | cons symbol rest ih =>
    have hrest := ih fun other hother => h other (List.mem_cons_of_mem _ hother)
    have hsymbol := h symbol List.mem_cons_self
    rw [List.map_cons, symbolsOf, hrest]
    cases symbol with
    | nonterminal name =>
      have hname : Naming.byCapitals.nonterminal? name = some name :=
        Naming.nonterminal?_byCapitals_eq_some_iff.mpr ⟨rfl, hsymbol.2⟩
      simp only [Symbol.display, toString, hname]
      rfl
    | terminal name =>
      obtain ⟨hword, hcapital, hepsilon⟩ := hsymbol
      have hname : Naming.byCapitals.terminal? name = some name :=
        Naming.terminal?_byCapitals_eq_some_iff.mpr ⟨rfl, hword.1, hepsilon, hcapital⟩
      have hnone : Naming.byCapitals.nonterminal? name = none := by
        simp [Naming.byCapitals, hcapital]
      simp only [Symbol.display, toString, hname, hnone]
      rfl

/-- The symbols found by some names are written with them. -/
theorem isWritable_of_symbolsOf {line : String} {isAlone : Bool} {names : List String}
    {rhs : List (Symbol String String)} (hnames : ∀ name ∈ names, IsWord name)
    (h : symbolsOf .byCapitals line isAlone names = .ok rhs) :
    ∀ symbol ∈ rhs, symbol.IsWritable := by
  induction names generalizing rhs with
  | nil =>
    cases h
    simp
  | cons name names ih =>
    have hname := hnames name List.mem_cons_self
    have hrest : ∀ {rest}, symbolsOf .byCapitals line isAlone names = .ok rest →
        ∀ symbol ∈ rest, symbol.IsWritable :=
      ih fun other hother => hnames other (List.mem_cons_of_mem _ hother)
    -- A symbol put before those of the other names is written with the first name.
    have hprepend : ∀ first : Symbol String String, first.IsWritable →
        (symbolsOf .byCapitals line isAlone names).map (first :: ·) = .ok rhs →
        ∀ symbol ∈ rhs, symbol.IsWritable := by
      intro first hfirst hmap
      cases hsymbols : symbolsOf .byCapitals line isAlone names with
      | error error =>
        rw [hsymbols] at hmap
        cases hmap
      | ok rest =>
        rw [hsymbols] at hmap
        cases hmap
        intro symbol hsymbol
        rcases List.mem_cons.mp hsymbol with rfl | hsymbol
        · exact hfirst
        · exact hrest hsymbols symbol hsymbol
    rw [symbolsOf] at h
    dsimp only at h
    split at h
    · next nonterminal _ hnonterminal =>
      obtain ⟨rfl, hcapital⟩ := Naming.nonterminal?_byCapitals_eq_some_iff.mp hnonterminal
      exact hprepend (.nonterminal name) ⟨hname, hcapital⟩ h
    · next terminal _ hterminal =>
      obtain ⟨rfl, -, hepsilon, hcapital⟩ := Naming.terminal?_byCapitals_eq_some_iff.mp hterminal
      exact hprepend (.terminal name) ⟨hname, hcapital, hepsilon⟩ h
    · split at h
      · cases h
      · split at h
        · exact hrest h
        · cases h

/-- A production is read from every line with its words. -/
theorem IsWritable.ofLine_eq (h : p.IsWritable) {line : List Char}
    (hwords : (words line).map String.ofList = p.lhs :: "->" :: p.namesOf) :
    ofLine .byCapitals line = .ok p := by
  obtain ⟨lhs, rhs⟩ := p
  have hlhs : Naming.byCapitals.nonterminal? lhs = some lhs :=
    Naming.nonterminal?_byCapitals_eq_some_iff.mpr ⟨rfl, h.lhs.2⟩
  unfold ofLine
  rw [hwords]
  cases rhs with
  | nil =>
    simp only [namesOf, hlhs, ne_eq, not_true_eq_false, if_false, List.isEmpty_nil]
    rfl
  | cons first rest =>
    simp only [namesOf, List.map_cons, hlhs, ne_eq, not_true_eq_false, if_false]
    rw [← List.map_cons, symbolsOf_map_display h.rhs]
    rfl

theorem isWritable_of_ofLine {line : List Char} (h : ofLine .byCapitals line = .ok p) :
    p.IsWritable := by
  have hwords : ∀ name ∈ (words line).map String.ofList, IsWord name := by
    intro name hname
    obtain ⟨word, hword, rfl⟩ := List.mem_map.mp hname
    exact isWord_of_mem_words hword
  unfold ofLine at h
  dsimp only at h
  split at h
  · next first arrow name rest heq =>
    rw [heq] at hwords
    split at h
    · cases h
    · next lhs hlhs =>
      obtain ⟨rfl, hcapital⟩ := Naming.nonterminal?_byCapitals_eq_some_iff.mp hlhs
      split at h
      · cases h
      · cases hsymbols : symbolsOf .byCapitals (String.ofList line) rest.isEmpty (name :: rest) with
        | error error =>
          rw [hsymbols] at h
          cases h
        | ok rhs =>
          rw [hsymbols] at h
          cases h
          constructor
          · exact ⟨hwords first List.mem_cons_self, hcapital⟩
          · apply isWritable_of_symbolsOf _ hsymbols
            intro other hother
            exact hwords other (List.mem_cons_of_mem _ (List.mem_cons_of_mem _ hother))
  · cases h

end Production

namespace Grammar

/-- Lines that show some productions in their order: each on a line of its own, with nothing
but blanks behind it, and anywhere between them lines of blanks and lines that start with a
hash. -/
inductive Lists : List (List Char) → List (Production String String) → Prop
  | nil : Lists [] []
  | idle {line : List Char} {lines : List (List Char)} {productions : List (Production String String)}
      (hline : (∀ c ∈ line, isBlank c = true) ∨ ∃ rest, line = '#' :: rest)
      (hrest : Lists lines productions) : Lists (line :: lines) productions
  | production {blanks : List Char} {lines : List (List Char)}
      {productions : List (Production String String)} (p : Production String String)
      (hblanks : ∀ c ∈ blanks, isBlank c = true) (hrest : Lists lines productions) :
      Lists ((p.display.toList ++ blanks) :: lines) (p :: productions)

variable {lines : List (List Char)} {productions : List (Production String String)}

theorem lists_map_display (productions : List (Production String String)) :
    Lists (productions.map fun p => p.display.toList) productions := by
  induction productions with
  | nil => exact .nil
  | cons p productions ih =>
    have hline : Lists ((p.display.toList ++ []) :: _) (p :: productions) := .production p (by simp) ih
    rwa [List.append_nil] at hline

/-- The lines that are not left out have the words of the productions. -/
theorem Lists.words_eq (h : Lists lines productions)
    (hwritable : ∀ p ∈ productions, p.IsWritable) :
    (lines.filter fun line => !isIdleLine line).map (fun line => (words line).map String.ofList) =
      productions.map fun p => p.lhs :: "->" :: p.namesOf := by
  induction h with
  | nil => rfl
  | idle hline hrest ih =>
    rw [List.filter_cons_of_neg (by simp [isIdleLine_eq_true_iff.mpr hline])]
    exact ih hwritable
  | production p hblanks hrest ih =>
    have hp := hwritable p List.mem_cons_self
    rw [List.filter_cons_of_pos (by simp [hp.isIdleLine_display]), List.map_cons, List.map_cons,
      words_append_blanks _ hblanks, hp.words_display,
      ih fun other hother => hwritable other (List.mem_cons_of_mem _ hother)]

theorem productionsOf_eq (hwritable : ∀ p ∈ productions, p.IsWritable)
    (hwords : lines.map (fun line => (words line).map String.ofList) =
      productions.map fun p => p.lhs :: "->" :: p.namesOf) :
    productionsOf .byCapitals lines = .ok productions := by
  induction lines generalizing productions with
  | nil =>
    rw [List.map_nil, eq_comm, List.map_eq_nil_iff] at hwords
    rw [hwords]
    rfl
  | cons line lines ih =>
    cases productions with
    | nil => simp at hwords
    | cons p productions =>
      obtain ⟨hline, hrest⟩ := List.cons.inj hwords
      have hp := hwritable p List.mem_cons_self
      rw [productionsOf, hp.ofLine_eq hline,
        ih (fun other hother => hwritable other (List.mem_cons_of_mem _ hother)) hrest]
      rfl

theorem Lists.ofText_eq (h : Lists lines productions) (hfeeds : ∀ line ∈ lines, '\n' ∉ line)
    (hwritable : ∀ p ∈ productions, p.IsWritable) :
    ofText .byCapitals (joinLines lines) = .ok ⟨productions⟩ := by
  have hread := map_filter_endedLines (fun line => !isIdleLine line)
    (fun line => (words line).map String.ofList)
    (fun line => by rw [isIdleLine_dropReturn]) (fun line => by rw [words_dropReturn]) rfl lines
  rw [ofText, lines_joinLines hfeeds, productionsOf_eq hwritable (hread.trans (h.words_eq hwritable))]
  rfl

theorem isWritable_of_productionsOf (h : productionsOf .byCapitals lines = .ok productions) :
    ∀ p ∈ productions, p.IsWritable := by
  induction lines generalizing productions with
  | nil =>
    cases h
    simp
  | cons line lines ih =>
    rw [productionsOf] at h
    split at h
    · cases h
    · next p hline =>
      cases hrest : productionsOf .byCapitals lines with
      | error error =>
        rw [hrest] at h
        cases h
      | ok rest =>
        rw [hrest] at h
        cases h
        intro other hother
        rcases List.mem_cons.mp hother with rfl | hother
        · exact Production.isWritable_of_ofLine hline
        · exact ih hrest other hother

theorem isWritable_of_ofText {text : List Char} {g : Grammar String String}
    (h : ofText .byCapitals text = .ok g) : ∀ p ∈ g.productions, p.IsWritable := by
  unfold ofText at h
  cases hproductions : productionsOf Naming.byCapitals
      ((Text.lines text).filter fun line => !isIdleLine line) with
  | error error =>
    rw [hproductions] at h
    cases h
  | ok productions =>
    rw [hproductions] at h
    cases h
    exact isWritable_of_productionsOf hproductions

/-- A written production is one line. -/
theorem lineFeed_not_mem_display {p : Production String String} (h : p.IsWritable) :
    '\n' ∉ p.display.toList := by
  have hname : ∀ {name : String}, IsWord name → '\n' ∉ name.toList := by
    intro name hword hfeed
    have hblank := hword.2 _ hfeed
    rw [isBlank_lineFeed] at hblank
    cases hblank
  rw [Production.toList_display, spaced, List.mem_append, List.mem_flatMap]
  rintro (hfeed | ⟨name, hmem, hfeed⟩)
  · exact hname h.lhs.1 hfeed
  · rcases List.mem_cons.mp hfeed with hspace | hfeed
    · exact absurd hspace (by decide)
    · rcases List.mem_cons.mp hmem with rfl | hmem
      · exact absurd hfeed (by decide)
      · exact hname (h.isWord_of_mem_namesOf name hmem) hfeed

/-- Productions whose names show their kind are read back from any text that lists them.
Those of a grammar that was read are of this sort, so showing them and reading them again
changes nothing. -/
theorem listed_productions_are_read_back :
    (∀ (productions : List (Production String String)) (lines : List (List Char)),
      (∀ p ∈ productions, p.IsWritable) → Lists lines productions →
      (∀ line ∈ lines, '\n' ∉ line) →
      ofText .byCapitals (joinLines lines) = .ok ⟨productions⟩) ∧
    ∀ (text : List Char) (g : Grammar String String), ofText .byCapitals text = .ok g →
      ofText .byCapitals (joinLines (g.productions.map fun p => p.display.toList)) = .ok g := by
  constructor
  · intro productions lines hwritable hlists hfeeds
    exact hlists.ofText_eq hfeeds hwritable
  · intro text g hread
    have hwritable := isWritable_of_ofText hread
    apply (lists_map_display g.productions).ofText_eq _ hwritable
    intro line hline
    obtain ⟨p, hp, rfl⟩ := List.mem_map.mp hline
    exact lineFeed_not_mem_display (hwritable p hp)

/-- Names that look like an arrow and like the start of a comment. -/
def oddProduction : Production String String :=
  ⟨"S", [.terminal "->", .nonterminal "Ünit", .terminal "#"]⟩

/-- Nothing behind the arrow. -/
def emptyProduction : Production String String := ⟨"Ünit", []⟩

/-- The two productions behind a comment, with an idle line between them, a carriage return
and a last line feed. -/
def oddLines : List (List Char) :=
  ['#' :: oddProduction.display.toList, oddProduction.display.toList ++ [], [' ', '\t'],
    emptyProduction.display.toList ++ ['\r'], []]

theorem listed_productions_are_read_back_odd :
    (∀ p ∈ [oddProduction, emptyProduction], p.IsWritable) ∧
      Lists oddLines [oddProduction, emptyProduction] ∧ (∀ line ∈ oddLines, '\n' ∉ line) ∧
      ofText .byCapitals (joinLines oddLines) = .ok ⟨[oddProduction, emptyProduction]⟩ ∧
      ofText .byCapitals (joinLines [oddProduction.display.toList, emptyProduction.display.toList]) =
        .ok ⟨[oddProduction, emptyProduction]⟩ := by
  have hodd : oddProduction.IsWritable := by
    refine ⟨⟨isWord_of_all (by decide) (by decide), by decide⟩, ?_⟩
    simp only [oddProduction, List.mem_cons, List.not_mem_nil, or_false, forall_eq_or_imp, forall_eq]
    exact ⟨⟨isWord_of_all (by decide) (by decide), by decide, by decide⟩,
      ⟨isWord_of_all (by decide) (by decide), by decide⟩,
      ⟨isWord_of_all (by decide) (by decide), by decide, by decide⟩⟩
  have hempty : emptyProduction.IsWritable :=
    ⟨⟨isWord_of_all (by decide) (by decide), by decide⟩, by simp [emptyProduction]⟩
  have hwritable : ∀ p ∈ [oddProduction, emptyProduction], p.IsWritable := by
    simp [hodd, hempty]
  have hlists : Lists oddLines [oddProduction, emptyProduction] :=
    .idle (Or.inr ⟨_, rfl⟩) (.production _ (by simp)
      (.idle (Or.inl (List.all_eq_true.mp (by decide)))
        (.production _ (List.all_eq_true.mp (by decide)) (.idle (Or.inl (by simp)) .nil))))
  have hfeeds : ∀ line ∈ oddLines, '\n' ∉ line := by decide
  have hread := listed_productions_are_read_back.1 _ _ hwritable hlists hfeeds
  exact ⟨hwritable, hlists, hfeeds, hread, listed_productions_are_read_back.2 _ _ hread⟩

end Grammar

end ShiftReduce
