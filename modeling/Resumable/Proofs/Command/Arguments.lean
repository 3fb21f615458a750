import Resumable.Command.Arguments
import Resumable.Proofs.Except

/-!
# Flags on a command line

Arguments are read in the same way whether or not some flags have been raised before. So
a flag may be put in front of any arguments that can be read, and raises itself alone.
-/

namespace Resumable.Command

/-- The options with some flags raised: going on after refusals, and mentioning each step. -/
def Options.raise (options : Options) (keepGoing verbose : Bool) : Options :=
  { options with
    keepGoing := options.keepGoing || keepGoing
    verbose := options.verbose || verbose }

namespace Progress

/-- What has been read so far, with some flags raised. -/
def raise (keepGoing verbose : Bool) (progress : Progress) : Progress :=
  { progress with
    keepGoing := progress.keepGoing || keepGoing
    verbose := progress.verbose || verbose }

variable {keepGoing verbose : Bool}

theorem raise_program (progress : Progress) :
    (progress.raise keepGoing verbose).program = progress.program := rfl

theorem set_raise (progress : Progress) (setting : Setting) :
    (progress.raise keepGoing verbose).set setting =
      (progress.set setting).map (raise keepGoing verbose) := by
  obtain ⟨switch, value⟩ := setting
  cases switch with
  | help => rfl
  | width =>
    simp only [set]
    cases (readWidth value).mapError Stop.error <;> rfl
  | byModifier => rfl
  | keepGoing => simp [set, raise, Except.map]
  | verbose => simp [set, raise, Except.map]

theorem setAll_raise (progress : Progress) (settings : List Setting) :
    (progress.raise keepGoing verbose).setAll settings =
      (progress.setAll settings).map (raise keepGoing verbose) := by
  induction settings generalizing progress with
  | nil => rfl
  | cons setting settings ih =>
    simp only [setAll, List.foldlM_cons, set_raise] at ih ⊢
    cases progress.set setting with
    | error stop => rfl
    | ok next => exact ih next

theorem apply_raise (progress : Progress) (expansion : Except UsageError Expansion)
    (next : Option Piece) :
    (progress.raise keepGoing verbose).apply expansion next =
      (progress.apply expansion next).map (Prod.map (raise keepGoing verbose) id) := by
  cases expansion with
  | error error => rfl
  | ok expansion =>
    obtain ⟨settings, _ | switch⟩ := expansion
    · simp only [apply, Except.mapError, ok_bind, setAll_raise]
      cases progress.setAll settings <;> rfl
    · match next with
      | some (.plain argument) =>
        simp only [apply, Except.mapError, ok_bind, setAll_raise]
        cases progress.setAll (settings ++ [⟨switch, argument⟩]) <;> rfl
      | none | some .doubleDash | some (.short _ _) | some (.long _ _) | some (.unknown _) => rfl

/-- Flags may be raised before the arguments are read or after. -/
theorem read_raise (progress : Progress) (pieces : List Piece) :
    (progress.raise keepGoing verbose).read pieces =
      (progress.read pieces).map (raise keepGoing verbose) := by
  fun_induction Progress.read progress pieces with
  | case1 => rfl
  | case2 progress argument pieces hprogram ih
  | case3 progress argument pieces hpieces hprogram ih
  | case4 progress argument program pieces hprogram ih
  | case5 progress argument pieces hprogram ih =>
    rw [read.eq_def]
    simp only [raise_program, hprogram]
    exact ih
  | case6 progress pieces hpieces ih =>
    rw [read.eq_def]
    simp only [raise_program]
    exact ih
  | case7 progress argument pieces ih => exact ih
  -- short and long options differ in how they are expanded, and are alike once applied
  | case8 progress switch tail pieces stop happly
  | case11 progress switch value pieces stop happly =>
    rw [read.eq_def]
    simp only [apply_raise, happly, Except.map]
  | case9 progress switch tail next head pieces happly ih
  | case12 progress switch value next head pieces happly ih =>
    rw [read.eq_def]
    simp only [apply_raise, happly]
    exact ih
  | case10 progress switch tail next taken pieces hpieces happly ih
  | case13 progress switch value next taken pieces hpieces happly ih =>
    rw [read.eq_def]
    simp only [apply_raise, happly]
    cases taken with
    | false => exact ih
    | true =>
      cases pieces with
      | nil => exact ih
      | cons head rest => exact (hpieces head rest rfl rfl).elim

theorem finish_raise (progress : Progress) :
    (progress.raise keepGoing verbose).finish =
      progress.finish.map fun options => options.raise keepGoing verbose := by
  obtain ⟨program, width, byModifier, _, _, extras⟩ := progress
  cases program with
  | none => rfl
  | some program => cases extras <;> rfl

theorem read_flag {switch : Switch} (hswitch : switch.takesValue = false) (progress : Progress)
    (pieces : List Piece) :
    progress.read (.short switch [] :: pieces) =
      progress.set ⟨switch, ""⟩ >>= fun progress => progress.read pieces := by
  have happly : progress.apply (expandShort switch []) pieces.head? =
      (progress.set ⟨switch, ""⟩).map fun progress => (progress, false) := by
    simp only [apply, expandShort, bundle, expandBare, hswitch, Except.mapError, ok_bind]
    cases hset : progress.set ⟨switch, ""⟩ <;> simp [setAll, hset, Except.map]
  rw [read.eq_def]
  simp only [happly]
  cases progress.set ⟨switch, ""⟩ <;> rfl

end Progress

/-- A flag in front of arguments is raised, and nothing else changes. -/
theorem readArguments_flag {flag : String} {switch : Switch} {keepGoing verbose : Bool}
    (hflag : flag ≠ "--") (hclassify : classify flag = .ok (.short switch []))
    (hswitch : switch.takesValue = false)
    (hset : ({} : Progress).set ⟨switch, ""⟩ = .ok (({} : Progress).raise keepGoing verbose))
    {arguments : List String} {options : Options} (h : readArguments arguments = .ok options) :
    readArguments (flag :: arguments) = .ok (options.raise keepGoing verbose) := by
  obtain ⟨pieces, hpieces, hrest⟩ := bind_eq_ok.1 h
  obtain ⟨progress, hread, hfinish⟩ := bind_eq_ok.1 hrest
  have hflagged : (classifyAll (flag :: arguments)).mapError Stop.error =
      .ok (.short switch [] :: pieces) := by
    rw [classifyAll, if_neg hflag, hclassify, ok_bind]
    cases hall : classifyAll arguments with
    | error error => simp [hall, Except.mapError] at hpieces
    | ok found =>
      rw [hall] at hpieces
      cases hpieces
      rfl
  have hraised : Progress.read {} (.short switch [] :: pieces) =
      .ok (progress.raise keepGoing verbose) := by
    rw [Progress.read_flag hswitch, hset, ok_bind, Progress.read_raise, hread]
    rfl
  rw [readArguments, hflagged, ok_bind, hraised, ok_bind, Progress.finish_raise, hfinish]
  rfl

section Flags

variable {arguments : List String} {options : Options} (h : readArguments arguments = .ok options)

include h

theorem readArguments_keepGoing :
    readArguments ("-k" :: arguments) = .ok { options with keepGoing := true } := by
  have hclassify : classify "-k" = .ok (.short .keepGoing []) := by decide
  have hset : ({} : Progress).set ⟨.keepGoing, ""⟩ = .ok (({} : Progress).raise true false) := rfl
  simpa [Options.raise] using readArguments_flag (by decide) hclassify rfl hset h

theorem readArguments_verbose :
    readArguments ("-v" :: arguments) = .ok { options with verbose := true } := by
  have hclassify : classify "-v" = .ok (.short .verbose []) := by decide
  have hset : ({} : Progress).set ⟨.verbose, ""⟩ = .ok (({} : Progress).raise false true) := rfl
  simpa [Options.raise] using readArguments_flag (by decide) hclassify rfl hset h

end Flags

end Resumable.Command
