import Resumable.Command.Compile
import Resumable.Proofs.Command.Arguments
import Resumable.Proofs.Report.Outcome
import Resumable.Proofs.Report.ReadBack
import Resumable.Proofs.Report.Within

/-!
# The command tells what comes of a text

The command prints the canonical trees of a text, if it has them, and else writes each
issue. The flags for going on and for mentioning each step have no part in the answer.
There are two exceptions: trees are not printed if the width was taken away, and a numeral
that is too long ends the command.
-/

namespace Resumable.Command

open Canon (Classifier Procedure canonDeclaration)
open Report (NumeralsWithin)
open Text (DigitLimit)

/-- How the command ends and what it prints, without what it says in passing. -/
def Output.answer (output : Output) : Status × String :=
  (output.status, output.stdout)

/-- A text is parsed, and its declarations have these canonical forms. -/
def Canonical (classify : Classifier) (text : String) (procedures : List Procedure) : Prop :=
  ∃ unit, (({} : Report).parse text).2 = .ok (some unit) ∧
    unit.map (canonDeclaration classify) = procedures.map .ok

theorem Options.classifier_reliable (options : Options) : options.classifier.Reliable := by
  unfold Options.classifier
  split
  · exact Classifier.byModifier_reliable
  · exact Classifier.byName_reliable

/-! ## A text -/

section Text

variable {limit : DigitLimit} {options : Options} {text : String} {report : Report}

/-- The answer to a text with these canonical forms. Their trees are printed, but without a
width only the empty list is. -/
def answerTo (width : Option Int) (procedures : List Procedure) : Status × String :=
  match width with
  | some width => (.exit 0, (Tree.list (procedures.map (·.toTree))).render width ++ "\n")
  | none => if procedures.isEmpty then (.exit 0, "()\n") else (.unfitted, "")

theorem answerTo_exit_zero_iff {width : Option Int} {procedures : List Procedure} :
    (answerTo width procedures).1 = .exit 0 ↔ (width = none → procedures = []) := by
  cases width with
  | some width => simp [answerTo]
  | none => cases procedures <;> simp [answerTo]

/-- The answer to what a text is compiled to. -/
def answerOf (width : Option Int) : Except Fault (Option (List Procedure)) → Status × String
  | .ok (some procedures) => answerTo width procedures
  | .error (.overlong overlong) => (.overlong overlong, "")
  | _ => (.exit 1, "")

/-- What a text is compiled to does not depend on what was said before. -/
theorem compileWithin_of_silent (hreport : report.silent = {}) (limit : DigitLimit)
    (classify : Classifier) (keepGoing : Bool) (text : String) :
    (Report.compileWithin limit classify keepGoing text report).2 =
        (Report.compileWithin limit classify keepGoing text {}).2 ∧
      (Report.compileWithin limit classify keepGoing text report).1.issues =
        (Report.compileWithin limit classify keepGoing text {}).1.issues := by
  rw [← hreport, Report.compileWithin_silent]
  exact ⟨rfl, rfl⟩

theorem answer_compileText (hreport : report.silent = {}) (luck : Report.Luck) :
    (compileText limit options luck text report).answer = answerOf options.width
      (Report.compileWithin limit options.classifier options.keepGoing text {}).2 := by
  rw [← (compileWithin_of_silent hreport _ _ _ _).1, compileText]
  obtain ⟨compiled, result⟩ :=
    Report.compileWithin limit options.classifier options.keepGoing text report
  match result with
  | .ok (some procedures) =>
    cases options.width with
    | some width => rfl
    | none => cases procedures <;> rfl
  | .ok none => rfl
  | .error fault => cases fault <;> rfl

theorem answer_of_canonical (hreport : report.silent = {}) (hwithin : NumeralsWithin limit text)
    {procedures : List Procedure} (h : Canonical options.classifier text procedures)
    (luck : Report.Luck) :
    (compileText limit options luck text report).answer = answerTo options.width procedures := by
  have hresult : (Report.compile options.classifier options.keepGoing text {}).2 =
      .ok (some procedures) := Report.compile_eq_some_iff.2 h
  rw [answer_compileText hreport, hwithin.compileWithin_eq, hresult, answerOf]

/-- Where there are no canonical forms there are issues, and each of them is written, unless the
command ends with a numeral that is too long. -/
theorem answer_of_not_canonical (hreport : report.silent = {})
    (h : NumeralsWithin limit text → ∀ procedures, ¬Canonical options.classifier text procedures)
    (luck : Report.Luck) :
    ((compileText limit options luck text report).answer = (.exit 1, "") ∧
      let issues :=
        (Report.compileWithin limit options.classifier options.keepGoing text {}).1.issues
      issues ≠ [] ∧ ∀ issue ∈ issues,
        Report.Writes (compileText limit options luck text report).stderr issue) ∨
    ¬NumeralsWithin limit text ∧
      ∃ overlong, (compileText limit options luck text report).answer =
        (.overlong overlong, "") := by
  obtain ⟨hresult, hissues⟩ :=
    compileWithin_of_silent hreport limit options.classifier options.keepGoing text
  rcases Report.compileWithin_cases limit options.classifier options.keepGoing text {} with
    hsame | ⟨hlong, overlong, hcut⟩
  · rcases Report.compile_cases options.classifier_reliable options.keepGoing text with
      ⟨procedures, hprocedures⟩ | ⟨hsome, hcases⟩
    · have hwithin := (Report.compileWithin_eq_ok_iff_compile.1 (hsame ▸ hprocedures)).1
      exact absurd (Report.compile_eq_some_iff.1 hprocedures) (h hwithin procedures)
    · refine .inl ?_
      rw [← hsame, ← hissues] at hsome
      rw [← hsame, ← hresult] at hcases
      rw [← hissues]
      -- the parting words after too many issues are added below the complaint
      rcases hcases with hnone | hmany
      · have hcompile : Report.compileWithin limit options.classifier options.keepGoing text
            report = (_, .ok none) := Prod.ext rfl hnone
        rw [compileText, hcompile]
        exact ⟨rfl, hsome, fun issue hissue => Report.writes_complain hissue luck⟩
      · have hcompile : Report.compileWithin limit options.classifier options.keepGoing text
            report = (_, .error .tooManyIssues) := Prod.ext rfl hmany
        rw [compileText, hcompile]
        exact ⟨rfl, hsome, fun issue hissue =>
          ((Report.writes_complain hissue luck).print _).print _⟩
  · refine .inr ⟨hlong, overlong, ?_⟩
    rw [answer_compileText hreport, hcut, answerOf]

/-- The command succeeds on just the texts that have canonical forms, unless a numeral is too
long, or the width was taken away and there are trees to be printed. -/
theorem status_eq_exit_zero_iff (hreport : report.silent = {}) (luck : Report.Luck) :
    (compileText limit options luck text report).status = .exit 0 ↔
      NumeralsWithin limit text ∧ ∃ procedures, Canonical options.classifier text procedures ∧
        (options.width = none → procedures = []) := by
  constructor
  · intro hstatus
    by_cases hcanonical : NumeralsWithin limit text ∧
        ∃ procedures, Canonical options.classifier text procedures
    · obtain ⟨hwithin, procedures, hprocedures⟩ := hcanonical
      refine ⟨hwithin, procedures, hprocedures, answerTo_exit_zero_iff.1 ?_⟩
      rw [← answer_of_canonical hreport hwithin hprocedures luck]
      exact hstatus
    · rw [not_and, not_exists] at hcanonical
      rcases answer_of_not_canonical hreport hcanonical luck with
        ⟨hanswer, -⟩ | ⟨-, overlong, hanswer⟩
      · cases hstatus.symm.trans (congrArg Prod.fst hanswer)
      · cases hstatus.symm.trans (congrArg Prod.fst hanswer)
  · rintro ⟨hwithin, procedures, hprocedures, hwidth⟩
    have hzero := answerTo_exit_zero_iff.2 hwidth
    rw [← answer_of_canonical hreport hwithin hprocedures luck] at hzero
    exact hzero

/-- Without a limit the answer does not depend on going on after a refusal. -/
theorem answerOf_compile_congr {classify : Classifier} (hclassify : classify.Reliable)
    (width : Option Int) (keepGoing keepGoing' : Bool) (text : String) :
    answerOf width (Report.compile classify keepGoing' text {}).2 =
      answerOf width (Report.compile classify keepGoing text {}).2 := by
  -- canonical forms are there in either case or in none, and without them all ends are alike
  rcases Report.compile_cases hclassify keepGoing text with ⟨procedures, h⟩ | ⟨-, h⟩
  · have h' : (Report.compile classify keepGoing' text {}).2 = .ok (some procedures) :=
      Report.compile_eq_some_iff.2 (Report.compile_eq_some_iff.1 h)
    rw [h, h']
  · rcases Report.compile_cases hclassify keepGoing' text with ⟨procedures, h'⟩ | ⟨-, h'⟩
    · have hagain : (Report.compile classify keepGoing text {}).2 = .ok (some procedures) :=
        Report.compile_eq_some_iff.2 (Report.compile_eq_some_iff.1 h')
      rw [hagain, h']
    · rcases h with h | h <;> rcases h' with h' | h' <;> rw [h, h'] <;> rfl

end Text

/-! ## A file -/

section File

variable {limit : DigitLimit}

/-- The first words, on which file is parsed, are all that a report starts with. -/
theorem silent_start (verbose : Bool) (words : List String) :
    (({ verbose } : Report).info words).silent = {} := by
  rw [Report.silent_info]
  rfl

theorem answer_withoutText (luck : Report.Luck) (filed : Report × Except Fault Unit) :
    (withoutText luck filed).answer = (.exit 1, "") := by
  obtain ⟨report, _ | _⟩ := filed
  · rfl
  · rfl

theorem compile_content {path : Path} (hpath : path.hasNull = false) {bytes : ByteArray}
    {text : String} (htext : decode? bytes = some text) (options : Options) (luck : Report.Luck) :
    ∃ report : Report, report.silent = {} ∧
      compile limit options luck path (.content bytes) =
        compileText limit options luck text report := by
  refine ⟨_, silent_start options.verbose ["Parsing", path.text], ?_⟩
  simp only [compile, hpath, htext]
  rfl

/-- The answer depends on no flag but the classifier, unless a numeral is too long. Then it may
depend on how far the work goes on. -/
theorem answer_compile_congr {options options' : Options} (hwidth : options'.width = options.width)
    (hclassifier : options'.byModifier = options.byModifier) (luck luck' : Report.Luck)
    (path : Path) {finding : Finding}
    (hgoing : options'.keepGoing = options.keepGoing ∨ ∀ bytes text, finding = .content bytes →
      decode? bytes = some text → NumeralsWithin limit text) :
    (compile limit options' luck' path finding).answer =
      (compile limit options luck path finding).answer := by
  have hclassify : options'.classifier = options.classifier := by
    simp only [Options.classifier, hclassifier]
  cases hpath : path.hasNull with
  | true =>
    simp only [compile, hpath]
    rfl
  | false =>
    cases finding with
    | missing | broken =>
      simp only [compile, hpath, Bool.false_eq_true, if_false, answer_withoutText]
    | content bytes =>
      cases htext : decode? bytes with
      | none =>
        simp only [compile, hpath, htext]
        rfl
      | some text =>
        obtain ⟨report, hreport, hcompile⟩ := compile_content hpath htext options luck
        obtain ⟨report', hreport', hcompile'⟩ := compile_content hpath htext options' luck'
        rw [hcompile, hcompile', answer_compileText hreport, answer_compileText hreport',
          hclassify, hwidth]
        -- going on after a refusal may lead to a numeral that is too long
        rcases hgoing with hgoing | hwithin
        · rw [hgoing]
        · have hshort := hwithin bytes text rfl htext
          rw [hshort.compileWithin_eq, hshort.compileWithin_eq]
          exact answerOf_compile_congr options.classifier_reliable _ _ _ text

theorem run_eq_compile {arguments : List String} {options : Options}
    (h : readArguments arguments = .ok options) (here : Path) (luck : Report.Luck)
    {m : Type → Type} [Monad m] (find : Path → m Finding) :
    let path := here.join (Path.ofText options.program)
    run limit arguments here find luck =
      do return compile limit options luck path (← find path) := by
  have hrequest : request arguments = .ok options := by
    cases arguments with
    | nil => cases h
    | cons first rest => simp only [request, h]
  simp only [run, hrequest]

/-- The command looks one file up and answers to what is found there. It prints the canonical
trees of the text in a file, if it has them, and then ends with status 0. Else it prints nothing,
ends with status 1 and writes each issue, of which there is at least one. There are two
exceptions. If the width was taken away, no tree is printed and the command ends otherwise, unless
the text is without declarations; and if a numeral of the text is too long, the command does not
end with status 0, and may end with that numeral. Options that ask for the same program, width and
classifier lead to the same answer, whatever is found, if no numeral is too long or they agree on
going on; and the other flags can be put in front of any command line. -/
theorem run_answers {limit : DigitLimit} {arguments : List String} {options : Options}
    (haccepted : readArguments arguments = .ok options) (here : Path) (luck : Report.Luck)
    (finding : Finding) :
    let path := here.join (Path.ofText options.program)
    let output := compile limit options luck path finding
    (∀ (m : Type → Type) [Monad m] (find : Path → m Finding),
      run limit arguments here find luck =
        do return compile limit options luck path (← find path)) ∧
    (∀ bytes text, path.hasNull = false → finding = .content bytes → decode? bytes = some text →
      (output.status = .exit 0 ↔ NumeralsWithin limit text ∧
        ∃ procedures, Canonical options.classifier text procedures ∧
          (options.width = none → procedures = [])) ∧
      (NumeralsWithin limit text → ∀ procedures, Canonical options.classifier text procedures →
        output.answer = answerTo options.width procedures) ∧
      ((NumeralsWithin limit text → ∀ procedures, ¬Canonical options.classifier text procedures) →
        (output.answer = (.exit 1, "") ∧
          let issues :=
            (Report.compileWithin limit options.classifier options.keepGoing text {}).1.issues
          issues ≠ [] ∧ ∀ issue ∈ issues, Report.Writes output.stderr issue) ∨
        ¬NumeralsWithin limit text ∧ ∃ overlong, output.answer = (.overlong overlong, ""))) ∧
    (∀ options' luck', options'.program = options.program → options'.width = options.width →
      options'.byModifier = options.byModifier →
      (options'.keepGoing = options.keepGoing ∨ ∀ bytes text, finding = .content bytes →
        decode? bytes = some text → NumeralsWithin limit text) →
      (compile limit options' luck' (here.join (Path.ofText options'.program)) finding).answer =
        output.answer) ∧
    readArguments ("-k" :: arguments) = .ok { options with keepGoing := true } ∧
    readArguments ("-v" :: arguments) = .ok { options with verbose := true } := by
  intro path output
  refine ⟨fun m _ find => run_eq_compile haccepted here luck find, ?_, ?_, ?_, ?_⟩
  · rintro bytes text hpath rfl htext
    obtain ⟨report, hreport, hcompile⟩ := compile_content hpath htext options luck
    have houtput : output = compileText limit options luck text report := hcompile
    rw [houtput]
    exact ⟨status_eq_exit_zero_iff hreport luck,
      fun hwithin procedures h => answer_of_canonical hreport hwithin h luck,
      fun hnever => answer_of_not_canonical hreport hnever luck⟩
  · intro options' luck' hprogram hwidth hclassifier hgoing
    rw [hprogram]
    exact answer_compile_congr hwidth hclassifier luck luck' path hgoing
  · exact readArguments_keepGoing haccepted
  · exact readArguments_verbose haccepted

end File

/-! ## A file with a generator -/

theorem decode?_toUTF8 (text : String) :
    decode? text.toUTF8 = some (String.ofList (Text.unifyLines text.toList)) := by
  have htext : String.fromUTF8? text.toUTF8 = some text := dif_pos text.isValidUTF8
  rw [decode?, htext, Option.map_some]

theorem decode_markedFunction :
    decode? Report.markedFunctionText.toUTF8 = some Report.markedFunctionText := by
  rw [decode?_toUTF8]
  decide +kernel

theorem numeralsWithin_markedFunction : NumeralsWithin .standard Report.markedFunctionText := by
  have htexts : Token.integerTexts (Token.scan Report.markedFunctionText).tokens =
      [['0', 'x', '1', 'F']] := by decide +kernel
  have hdenotes : Token.Denotes ['0', 'x', '1', 'F'] 31 :=
    .hexadecimal (.hexadecimal (.inl rfl) (by decide) (List.all_eq_true.1 (by decide)))
  rw [NumeralsWithin, htexts, List.forall_mem_singleton]
  exact hdenotes.short (by decide) (by decide)

/-- The function in the file is a generator by its marker. The answer stays the same if each
step is mentioned. -/
theorem run_answers_marked :
    let finding := Finding.content Report.markedFunctionText.toUTF8
    let find : Path → Id Finding := fun _ => finding
    let procedure : Procedure :=
      ⟨.syncStar, "f_async", [], [], .block [.returning (.constant "31")]⟩
    let output : Output := run .standard ["-kmw", "20", "a.dart"] ⟨"/", ["w"]⟩ find ⟨0, 0, 0⟩
    let verbose : Output :=
      run .standard ["-v", "-kmw", "20", "a.dart"] ⟨"/", ["w"]⟩ find ⟨1, 2, 3⟩
    readArguments ["-kmw", "20", "a.dart"] = .ok ⟨"a.dart", some 20, true, true, false⟩ ∧
      NumeralsWithin .standard Report.markedFunctionText ∧
      output.answer = (.exit 0, (Tree.list [procedure.toTree]).render 20 ++ "\n") ∧
      verbose.answer = output.answer := by
  intro finding find procedure output verbose
  have haccepted : readArguments ["-kmw", "20", "a.dart"] =
      .ok ⟨"a.dart", some 20, true, true, false⟩ := rfl
  obtain ⟨hrun, hfile, hsame, -, hverbose⟩ :=
    run_answers haccepted ⟨"/", ["w"]⟩ ⟨0, 0, 0⟩ finding
  have houtput : output = _ := hrun Id find
  have hmentioned : verbose = _ := (run_answers hverbose ⟨"/", ["w"]⟩ ⟨1, 2, 3⟩ finding).1 Id find
  obtain ⟨-, hprinted, -⟩ := hfile _ _ rfl rfl decode_markedFunction
  refine ⟨haccepted, numeralsWithin_markedFunction, ?_, ?_⟩
  · rw [houtput]
    exact hprinted numeralsWithin_markedFunction [procedure]
      ⟨_, Report.parse_markedFunction {}, rfl⟩
  · rw [houtput, hmentioned]
    exact hsame _ ⟨1, 2, 3⟩ rfl rfl rfl (.inl rfl)

/-- The file has a canonical tree, but without a width it is not printed, and the command
ends neither with status 0 nor with status 1. -/
theorem run_unfitted :
    let finding := Finding.content Report.markedFunctionText.toUTF8
    let options : Options := ⟨"a.dart", none, false, false, false⟩
    let procedure : Procedure :=
      ⟨.async, "f_async", [], [], .block [.returning (.constant "31")]⟩
    let output : Output :=
      run (m := Id) .standard ["-w--", "a.dart"] ⟨"/", ["w"]⟩ (fun _ => finding) ⟨0, 0, 0⟩
    readArguments ["-w--", "a.dart"] = .ok options ∧
      NumeralsWithin .standard Report.markedFunctionText ∧
      Canonical options.classifier Report.markedFunctionText [procedure] ∧
      output.answer = (.unfitted, "") := by
  intro finding options procedure output
  have haccepted : readArguments ["-w--", "a.dart"] = .ok options := rfl
  have hcanonical : Canonical options.classifier Report.markedFunctionText [procedure] :=
    ⟨_, Report.parse_markedFunction {}, rfl⟩
  have hpath : (Path.join ⟨"/", ["w"]⟩ (Path.ofText "a.dart")).hasNull = false := by decide
  obtain ⟨report, hreport, hcompile⟩ :=
    compile_content hpath decode_markedFunction options ⟨0, 0, 0⟩
  have houtput : output = _ :=
    (run_eq_compile (m := Id) haccepted _ _ fun _ => finding).trans hcompile
  refine ⟨haccepted, numeralsWithin_markedFunction, hcanonical, ?_⟩
  rw [houtput, answer_of_canonical hreport numeralsWithin_markedFunction hcanonical]
  rfl

end Resumable.Command
