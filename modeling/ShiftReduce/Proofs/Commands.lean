import ShiftReduce.Command
import ShiftReduce.Proofs.Closed

/-!
Commands that cannot start. A command needs a language, and two of the commands need an input.
A language cannot be loaded if its grammar or its table cannot be read or is malformed, or if
this holds of messages that are there. A command without its language or its input has written
nothing, except for the one that lists tokens: it has written its heading when it finds that
there is no input.
-/
namespace ShiftReduce

section Results

variable {ε ε' α β : Type}

theorem bind_eq_error_iff {result : Except ε α} {f : α → Except ε β} {error : ε} :
    result >>= f = .error error ↔
      result = .error error ∨ ∃ a, result = .ok a ∧ f a = .error error := by
  cases result with
  | error failure => simp [bind, Except.bind]
  | ok a => simp [bind, Except.bind]

theorem map_eq_error_iff {result : Except ε α} {f : α → β} {error : ε} :
    result.map f = .error error ↔ result = .error error := by
  cases result with
  | error failure => simp [Except.map]
  | ok a => simp [Except.map]

theorem mapError_eq_error_iff {result : Except ε α} {f : ε → ε'} {error : ε'} :
    result.mapError f = .error error ↔ ∃ failure, result = .error failure ∧ f failure = error := by
  cases result with
  | error failure =>
    constructor
    · rintro ⟨⟩
      exact ⟨failure, rfl, rfl⟩
    · rintro ⟨_, ⟨⟩, rfl⟩
      rfl
  | ok a => exact ⟨fun h => (by cases h), fun ⟨_, h, _⟩ => (by cases h)⟩

theorem mapError_eq_ok_iff {result : Except ε α} {f : ε → ε'} {a : α} :
    result.mapError f = .ok a ↔ result = .ok a := by
  refine ⟨eq_ok_of_mapError, ?_⟩
  rintro rfl
  rfl

end Results

variable {files : Files} {directory name : String}

/-- The path of a file of a language. -/
def languagePath (directory name extension : String) : String :=
  joinPath directory (name ++ extension)

/-- The language has a grammar. -/
def HasGrammar (files : Files) (directory name : String) (grammar : Grammar String String) : Prop :=
  ∃ text, files.readText (languagePath directory name ".grammar") = .ok text ∧
    Grammar.ofText .byCapitals text = .ok grammar

/-- The language has messages; there are none if the file is not there. -/
def HasMessages (files : Files) (directory name : String) (messages : Messages) : Prop :=
  files.readText (languagePath directory name ".error") = .error .notFound ∧ messages = {} ∨
    ∃ text, files.readText (languagePath directory name ".error") = .ok text ∧
      Messages.ofText text = .ok messages

/-- Why a language cannot be loaded: a file that cannot be read or is malformed, while those
before it are in order. -/
inductive CannotLoad (files : Files) (directory name : String) : LoadError → Prop
  | noGrammar {error : ReadError}
      (h : files.readText (languagePath directory name ".grammar") = .error error) :
      CannotLoad files directory name
        (.unreadable (languagePath directory name ".grammar") error)
  | grammar {text : List Char} {error : NotationError}
      (h : files.readText (languagePath directory name ".grammar") = .ok text)
      (hmalformed : Grammar.ofText (.byCapitals : Naming String String) text = .error error) :
      CannotLoad files directory name (.grammar error)
  | noMessages {grammar : Grammar String String} {error : ReadError}
      (hgrammar : HasGrammar files directory name grammar)
      (h : files.readText (languagePath directory name ".error") = .error error)
      (hthere : error ≠ .notFound) :
      CannotLoad files directory name
        (.unreadable (languagePath directory name ".error") error)
  | messages {grammar : Grammar String String} {text : List Char} {error : MalformedMessage}
      (hgrammar : HasGrammar files directory name grammar)
      (h : files.readText (languagePath directory name ".error") = .ok text)
      (hmalformed : Messages.ofText text = .error error) :
      CannotLoad files directory name (.messages error)
  | noTable {grammar : Grammar String String} {messages : Messages} {error : ReadError}
      (hgrammar : HasGrammar files directory name grammar)
      (hmessages : HasMessages files directory name messages)
      (h : files.readText (languagePath directory name ".table") = .error error) :
      CannotLoad files directory name
        (.unreadable (languagePath directory name ".table") error)
  | table {grammar : Grammar String String} {messages : Messages} {text : List Char}
      {error : TableTextError} (hgrammar : HasGrammar files directory name grammar)
      (hmessages : HasMessages files directory name messages)
      (h : files.readText (languagePath directory name ".table") = .ok text)
      (hmalformed : Table.ofText .byCapitals messages grammar text = .error error) :
      CannotLoad files directory name (.table error)

theorem messages_load_eq_ok_iff {messages : Messages} :
    Messages.load files (languagePath directory name ".error") = .ok messages ↔
      HasMessages files directory name messages := by
  unfold Messages.load HasMessages
  cases files.readText (languagePath directory name ".error") with
  | error error =>
    cases error <;> simp [eq_comm]
  | ok text => simp [mapError_eq_ok_iff]

/-- Messages that cannot be loaded are in a file that is there. -/
theorem messages_load_eq_error_iff {error : LoadError} :
    Messages.load files (languagePath directory name ".error") = .error error ↔
      (∃ failure, files.readText (languagePath directory name ".error") = .error failure ∧
        failure ≠ .notFound ∧ error = .unreadable (languagePath directory name ".error") failure) ∨
      ∃ text malformed, files.readText (languagePath directory name ".error") = .ok text ∧
        Messages.ofText text = .error malformed ∧ error = .messages malformed := by
  unfold Messages.load
  cases files.readText (languagePath directory name ".error") with
  | error failure =>
    cases failure <;> simp [eq_comm]
  | ok text => simp [mapError_eq_error_iff, @eq_comm _ error]

/-- The files are read in their order, and the first one that is not in order is the reason. -/
theorem load_eq_error_iff {error : LoadError} :
    Language.load files directory name = .error error ↔ CannotLoad files directory name error := by
  simp only [Language.load, Table.load, Files.loadText, map_eq_error_iff, bind_eq_error_iff,
    mapError_eq_error_iff, mapError_eq_ok_iff]
  constructor
  · rintro (⟨failure, hread, rfl⟩ | ⟨grammarText, hread, ⟨malformed, hofText, rfl⟩ |
      ⟨grammar, hofText, hrest⟩⟩)
    · exact .noGrammar hread
    · exact .grammar hread hofText
    · have hgrammar : HasGrammar files directory name grammar := ⟨grammarText, hread, hofText⟩
      rcases hrest with hmessages | ⟨messages, hmessages, htable⟩
      · rcases messages_load_eq_error_iff.mp hmessages with
          ⟨failure, hread, hthere, rfl⟩ | ⟨text, malformed, hread, hmalformed, rfl⟩
        · exact .noMessages hgrammar hread hthere
        · exact .messages hgrammar hread hmalformed
      · have hmessages := messages_load_eq_ok_iff.mp hmessages
        rcases htable with ⟨failure, hread, rfl⟩ | ⟨text, hread, malformed, hmalformed, rfl⟩
        · exact .noTable hgrammar hmessages hread
        · exact .table hgrammar hmessages hread hmalformed
  · intro h
    cases h with
    | noGrammar h => exact Or.inl ⟨_, h, rfl⟩
    | grammar h hmalformed => exact Or.inr ⟨_, h, Or.inl ⟨_, hmalformed, rfl⟩⟩
    | noMessages hgrammar h hthere =>
      obtain ⟨text, hread, hofText⟩ := hgrammar
      exact Or.inr ⟨text, hread, Or.inr ⟨_, hofText,
        Or.inl (messages_load_eq_error_iff.mpr (Or.inl ⟨_, h, hthere, rfl⟩))⟩⟩
    | messages hgrammar h hmalformed =>
      obtain ⟨text, hread, hofText⟩ := hgrammar
      exact Or.inr ⟨text, hread, Or.inr ⟨_, hofText,
        Or.inl (messages_load_eq_error_iff.mpr (Or.inr ⟨_, _, h, hmalformed, rfl⟩))⟩⟩
    | noTable hgrammar hmessages h =>
      obtain ⟨text, hread, hofText⟩ := hgrammar
      exact Or.inr ⟨text, hread, Or.inr ⟨_, hofText,
        Or.inr ⟨_, messages_load_eq_ok_iff.mpr hmessages, Or.inl ⟨_, h, rfl⟩⟩⟩⟩
    | table hgrammar hmessages h hmalformed =>
      obtain ⟨text, hread, hofText⟩ := hgrammar
      exact Or.inr ⟨text, hread, Or.inr ⟨_, hofText,
        Or.inr ⟨_, messages_load_eq_ok_iff.mpr hmessages, Or.inr ⟨_, h, _, hmalformed, rfl⟩⟩⟩⟩

namespace Command

/-- A command has no language. -/
inductive LacksLanguage (files : Files) (directory name : String) : CommandError → Prop
  | cannotLoad {error : LoadError} (h : CannotLoad files directory name error) :
      LacksLanguage files directory name (.load error)

/-- A command has a language and no input. -/
inductive LacksInput (files : Files) (directory name file : String) : CommandError → Prop
  | cannotOpen {language : Language} {error : ReadError}
      (hload : Language.load files directory name = .ok language) (h : files file = .error error) :
      LacksInput files directory name file (.cannotOpen file error)

variable {error : CommandError} {file : String}

theorem check_of_lacksLanguage (h : LacksLanguage files directory name error) :
    check files directory name = stop error := by
  obtain ⟨hload⟩ := h
  rw [check, load_eq_error_iff.mpr hload]

theorem lex_of_lacksLanguage (h : LacksLanguage files directory name error) (file : String) :
    lex files directory name file = stop error := by
  obtain ⟨hload⟩ := h
  rw [lex, load_eq_error_iff.mpr hload]

theorem parse_of_lacksLanguage (h : LacksLanguage files directory name error) (limit : Nat)
    (file : String) : parse limit files directory name file = some (stop error) := by
  obtain ⟨hload⟩ := h
  rw [parse, load_eq_error_iff.mpr hload]

/-- The heading is written before the input is opened. -/
theorem lex_of_lacksInput (h : LacksInput files directory name file error) :
    lex files directory name file = ⟨"Tokens for '" ++ file ++ "':\n", .error error⟩ := by
  obtain ⟨hload, hopen⟩ := h
  have hheading : linesOf ["Tokens for '" ++ file ++ "':"] = "Tokens for '" ++ file ++ "':\n" := by
    apply String.toList_inj.mp
    simp [linesOf, String.join, List.append_assoc]
  simp only [lex, hload, openSource, hopen, hheading]

/-- The input is opened before anything is written. -/
theorem parse_of_lacksInput (h : LacksInput files directory name file error) (limit : Nat) :
    parse limit files directory name file = some (stop error) := by
  obtain ⟨hload, hopen⟩ := h
  simp only [parse, hload, openSource, hopen]

/-- Tokens break off for a read that fails and for nothing else. -/
theorem exists_lex_of_tokenLines {items : List (Lexed String)} {lines : List String}
    (h : tokenLines items = (lines, .error error)) : ∃ failure, error = .lex failure := by
  induction items generalizing lines with
  | nil => cases h
  | cons item rest ih =>
    cases hrest : tokenLines rest with
    | mk later result =>
      rw [hrest] at ih
      match item with
      | .ok token =>
        simp only [tokenLines, hrest, Prod.mk.injEq] at h
        exact ih (Prod.ext rfl h.2)
      | .error (.unrecognized text reason?) =>
        simp only [tokenLines, hrest, Prod.mk.injEq, map_eq_error_iff] at h
        exact ih (Prod.ext rfl h.2)
      | .error (.unreadable failure) =>
        cases h
        exact ⟨_, rfl⟩

/-- A command has no language, or it has one and no input, or it has both. -/
theorem start_cases (files : Files) (directory name file : String) :
    (∃ error, LacksLanguage files directory name error) ∨
      (∃ error, LacksInput files directory name file error) ∨
        ∃ language reader, Language.load files directory name = .ok language ∧
          files file = .ok reader := by
  cases hload : Language.load files directory name with
  | error failure => exact Or.inl ⟨_, ⟨load_eq_error_iff.mp hload⟩⟩
  | ok language =>
    cases hopen : files file with
    | error failure => exact Or.inr (Or.inl ⟨_, ⟨hload, hopen⟩⟩)
    | ok reader => exact Or.inr (Or.inr ⟨language, reader, rfl, rfl⟩)

/-- A command that stops has no language or no input, or its input cannot be read to the end. -/
theorem lex_error_cases (h : (lex files directory name file).result = .error error) :
    LacksLanguage files directory name error ∨ LacksInput files directory name file error ∨
      ∃ failure, error = .lex failure := by
  rcases start_cases files directory name file with
    ⟨reason, hlanguage⟩ | ⟨reason, hinput⟩ | ⟨language, reader, hload, hopen⟩
  · rw [lex_of_lacksLanguage hlanguage] at h
    cases h
    exact Or.inl hlanguage
  · rw [lex_of_lacksInput hinput] at h
    cases h
    exact Or.inr (Or.inl hinput)
  · simp only [lex, hload, openSource, hopen] at h
    exact Or.inr (Or.inr (exists_lex_of_tokenLines (Prod.ext rfl h)))

theorem parse_error_cases {limit : Nat} {outcome : CommandOutcome}
    (hparse : parse limit files directory name file = some outcome)
    (h : outcome.result = .error error) :
    LacksLanguage files directory name error ∨ LacksInput files directory name file error ∨
      ∃ failure, error = .lex failure := by
  rcases start_cases files directory name file with
    ⟨reason, hlanguage⟩ | ⟨reason, hinput⟩ | ⟨language, reader, hload, hopen⟩
  · rw [parse_of_lacksLanguage hlanguage] at hparse
    cases hparse
    cases h
    exact Or.inl hlanguage
  · rw [parse_of_lacksInput hinput] at hparse
    cases hparse
    cases h
    exact Or.inr (Or.inl hinput)
  · simp only [parse, hload, openSource, hopen, Option.map_eq_some_iff] at hparse
    obtain ⟨result, -, rfl⟩ := hparse
    cases result with
    | error failure =>
      cases h
      exact Or.inr (Or.inr ⟨failure, rfl⟩)
    | ok report => cases h

theorem lacksLanguage_of_check (h : (check files directory name).result = .error error) :
    LacksLanguage files directory name error := by
  unfold check at h
  cases hload : Language.load files directory name with
  | error failure =>
    simp only [hload] at h
    cases h
    exact ⟨load_eq_error_iff.mp hload⟩
  | ok language =>
    simp only [hload] at h
    cases h

/-- A command without a language writes nothing, and so does a parse without an input. The command
that lists tokens has written its heading when there is no input. A command that stops with
another error cannot read its input to the end. -/
theorem written_without_start (files : Files) (directory name : String) :
    (∀ error, (check files directory name).result = .error error ↔
      LacksLanguage files directory name error) ∧
    (∀ error, LacksLanguage files directory name error →
      check files directory name = stop error ∧
        ∀ file, lex files directory name file = stop error ∧
          ∀ limit, parse limit files directory name file = some (stop error)) ∧
    ∀ file error,
      (LacksInput files directory name file error →
        lex files directory name file = ⟨"Tokens for '" ++ file ++ "':\n", .error error⟩ ∧
          ∀ limit, parse limit files directory name file = some (stop error)) ∧
      ((lex files directory name file).result = .error error →
        LacksLanguage files directory name error ∨ LacksInput files directory name file error ∨
          ∃ failure, error = .lex failure) ∧
      ∀ limit outcome, parse limit files directory name file = some outcome →
        outcome.result = .error error →
          LacksLanguage files directory name error ∨ LacksInput files directory name file error ∨
            ∃ failure, error = .lex failure := by
  refine ⟨fun error => ⟨lacksLanguage_of_check, fun h => ?_⟩, fun error h => ?_,
    fun file error => ?_⟩
  · rw [check_of_lacksLanguage h]
    rfl
  · exact ⟨check_of_lacksLanguage h, fun file =>
      ⟨lex_of_lacksLanguage h file, fun limit => parse_of_lacksLanguage h limit file⟩⟩
  · exact ⟨fun h => ⟨lex_of_lacksInput h, parse_of_lacksInput h⟩, lex_error_cases,
      fun limit outcome => parse_error_cases⟩

/-- Files of a language with one production and one row, in a directory, and nothing else. -/
def onlyLanguage : Files := fun path =>
  if path = "lang/l.grammar" then .ok (.ofBytes "S -> a\n".toUTF8.toList)
  else if path = "lang/l.table" then .ok (.ofBytes "\ta\n0\tacc\n".toUTF8.toList)
  else .error .notFound

/-- The language in these files. -/
def smallest : Language :=
  .ofTable "l" ⟨⟨[⟨"S", [.terminal "a"]⟩]⟩, [⟨⟨[("a", .accept)]⟩, {}⟩], .error defaultMessage⟩

theorem written_without_start_onlyLanguage :
    Language.load onlyLanguage "lang" "l" = .ok smallest ∧
      lex onlyLanguage "lang" "l" "in.txt" =
        ⟨"Tokens for 'in.txt':\n", .error (.cannotOpen "in.txt" .notFound)⟩ ∧
      parse 10 onlyLanguage "lang" "l" "in.txt" = some (stop (.cannotOpen "in.txt" .notFound)) ∧
      lex onlyLanguage "lang" "m" "in.txt" =
        stop (.load (.unreadable "lang/m.grammar" .notFound)) := by
  obtain ⟨-, hlanguage, -⟩ := written_without_start onlyLanguage "lang" "m"
  obtain ⟨-, -, hinput⟩ := written_without_start onlyLanguage "lang" "l"
  have hload : Language.load onlyLanguage "lang" "l" = .ok smallest := by with_unfolding_all rfl
  obtain ⟨hlex, hparse⟩ := (hinput "in.txt" _).1 ⟨hload, rfl⟩
  have hread : onlyLanguage.readText (languagePath "lang" "m" ".grammar") = .error .notFound := by
    with_unfolding_all rfl
  obtain ⟨-, hstop⟩ := hlanguage _ ⟨.noGrammar hread⟩
  have hheading : "Tokens for '" ++ "in.txt" ++ "':\n" = "Tokens for 'in.txt':\n" := by decide
  refine ⟨hload, hheading ▸ hlex, hparse 10, ?_⟩
  · rw [(hstop "in.txt").1]
    with_unfolding_all rfl

/-- Something is written although the input cannot be opened. -/
theorem lex_writes_before_open :
    (lex onlyLanguage "lang" "l" "in.txt").result = .error (.cannotOpen "in.txt" .notFound) ∧
      (lex onlyLanguage "lang" "l" "in.txt").written ≠ "" := by
  have hlex : lex onlyLanguage "lang" "l" "in.txt" =
      ⟨"Tokens for 'in.txt':\n", .error (.cannotOpen "in.txt" .notFound)⟩ := by
    with_unfolding_all rfl
  rw [hlex]
  exact ⟨rfl, by decide⟩

end Command

end ShiftReduce
