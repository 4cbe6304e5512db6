import Mathlib.Data.List.Basic

/-!
# Command lines

How `parse_args` of the daemon and of the client go over their arguments. The client has
commands besides its options; otherwise the two loops are the same. `Means` says which
lines there are, and what each of them asks for.
-/

namespace MehoyRuntime.Daemon

def flags : List String := ["-h", "--help", "-V", "--version", "--endpoint"]

/-- What tells the programs apart: their commands, and the error for another argument. -/
structure Program (κ : Type) where
  command : String → Option κ
  unrecognised : String → String
  command_flag : ∀ arg ∈ flags, command arg = none

inductive Asked (κ : Type)
  | given (command : Option κ) (endpoint : Option String)
  | help
  | version
  deriving DecidableEq, Repr

namespace Program
variable {κ : Type} (p : Program κ)

def scan (endpoint : Option String) (command : Option κ) :
    List String → Except String (Asked κ)
  | [] => .ok (.given command endpoint)
  | arg :: args =>
    if arg = "-h" ∨ arg = "--help" then .ok .help
    else if arg = "-V" ∨ arg = "--version" then .ok .version
    else if arg = "--endpoint" then
      match args with
      | [] => .error "--endpoint requires an address"
      | value :: rest => scan (some value) command rest
    else
      match p.command arg with
      | some known =>
        if command.isNone then scan endpoint (some known) args else .error (p.unrecognised arg)
      | none => .error (p.unrecognised arg)

/-- What is read without ending the line. -/
inductive Setting
  | endpoint (value : String)
  | command (word : String) (command : κ) (known : p.command word = some command)

variable {p}

namespace Setting

def words : p.Setting → List String
  | .endpoint value => ["--endpoint", value]
  | .command word _ _ => [word]

def endpoint? : p.Setting → Option String
  | .endpoint value => some value
  | .command _ _ _ => none

def command? : p.Setting → Option κ
  | .endpoint _ => none
  | .command _ known _ => some known

end Setting

def render (settings : List p.Setting) : List String := settings.flatMap Setting.words

def endpoints (settings : List p.Setting) : List String := settings.filterMap Setting.endpoint?

def commands (settings : List p.Setting) : List κ := settings.filterMap Setting.command?

variable (p) in
/-- The lines, and what each of them asks for. -/
inductive Means : List String → Except String (Asked κ) → Prop
  | given (settings : List p.Setting) : (commands settings).length ≤ 1 →
      Means (render settings)
        (.ok (.given (commands settings).head? (endpoints settings).getLast?))
  | help (settings : List p.Setting) (flag : String) (rest : List String) :
      (commands settings).length ≤ 1 → flag = "-h" ∨ flag = "--help" →
      Means (render settings ++ flag :: rest) (.ok .help)
  | version (settings : List p.Setting) (flag : String) (rest : List String) :
      (commands settings).length ≤ 1 → flag = "-V" ∨ flag = "--version" →
      Means (render settings ++ flag :: rest) (.ok .version)
  | incomplete (settings : List p.Setting) : (commands settings).length ≤ 1 →
      Means (render settings ++ ["--endpoint"]) (.error "--endpoint requires an address")
  | unrecognised (settings : List p.Setting) (arg : String) (rest : List String) :
      (commands settings).length ≤ 1 → arg ∉ flags →
      (p.command arg = none ∨ commands settings ≠ []) →
      Means (render settings ++ arg :: rest) (.error (p.unrecognised arg))

/-! ### One argument -/

variable {endpoint : Option String} {command : Option κ} {arg : String} {args : List String}

theorem scan_help (h : arg = "-h" ∨ arg = "--help") :
    p.scan endpoint command (arg :: args) = .ok .help := by
  rw [scan.eq_def]
  exact if_pos h

theorem scan_version (h : arg = "-V" ∨ arg = "--version") :
    p.scan endpoint command (arg :: args) = .ok .version := by
  have hhelp : ¬ (arg = "-h" ∨ arg = "--help") := by
    rcases h with rfl | rfl <;> decide
  rw [scan.eq_def]
  exact (if_neg hhelp).trans (if_pos h)

theorem scan_endpoint (value : String) :
    p.scan endpoint command ("--endpoint" :: value :: args) = p.scan (some value) command args := by
  rw [scan.eq_def]
  rfl

theorem scan_incomplete :
    p.scan endpoint command ["--endpoint"] = .error "--endpoint requires an address" := by
  rw [scan.eq_def]
  rfl

theorem scan_word (h : arg ∉ flags) : p.scan endpoint command (arg :: args) =
    match p.command arg with
    | some known =>
      if command.isNone then p.scan endpoint (some known) args else .error (p.unrecognised arg)
    | none => .error (p.unrecognised arg) := by
  simp only [flags, List.mem_cons, List.not_mem_nil, or_false, not_or] at h
  rw [scan.eq_def]
  simp only [h, or_self, if_false]

theorem command_free {c : κ} (h : p.command arg = some c) : arg ∉ flags := by
  intro hflag
  rw [p.command_flag arg hflag] at h
  cases h

/-! ### A whole line -/

/-- The settings read so far are what the loop holds. -/
theorem scan_render (settings : List p.Setting)
    (hone : (command.toList ++ commands settings).length ≤ 1) :
    p.scan endpoint command (render settings ++ args) =
      p.scan ((endpoints settings).getLast?.or endpoint)
        (command.toList ++ commands settings).head? args := by
  induction settings generalizing endpoint command with
  | nil => cases command <;> rfl
  | cons setting settings ih =>
    cases setting with
    | endpoint value =>
      have hlast : (endpoints (.endpoint value :: settings)).getLast?.or endpoint =
          (endpoints settings).getLast?.or (some value) := by
        simp only [endpoints, List.filterMap_cons, Setting.endpoint?, List.getLast?_cons]
        cases (List.filterMap Setting.endpoint? settings).getLast? <;> rfl
      rw [hlast]
      exact (scan_endpoint value).trans (ih hone)
    | command word c known =>
      cases command with
      | some other => simp [commands, Setting.command?] at hone
      | none =>
        have hword : p.scan endpoint none (word :: (render settings ++ args)) =
            p.scan endpoint (some c) (render settings ++ args) := by
          simp only [scan_word (command_free known), known, Option.isNone_none, if_true]
        exact hword.trans (ih hone)

theorem scan_start (settings : List p.Setting) (hone : (commands settings).length ≤ 1) :
    p.scan none none (render settings ++ args) =
      p.scan (endpoints settings).getLast? (commands settings).head? args := by
  have hread : p.scan none none (render settings ++ args) =
      p.scan ((endpoints settings).getLast?.or none) (commands settings).head? args :=
    scan_render settings hone
  rwa [Option.or_none] at hread

theorem scan_of_means {line : List String} {asked : Except String (Asked κ)}
    (h : p.Means line asked) : p.scan none none line = asked := by
  cases h with
  | given settings hone =>
    rw [← List.append_nil (render settings), scan_start settings hone]
    rfl
  | help settings flag rest hone hflag => rw [scan_start settings hone, scan_help hflag]
  | version settings flag rest hone hflag => rw [scan_start settings hone, scan_version hflag]
  | incomplete settings hone => rw [scan_start settings hone, scan_incomplete]
  | unrecognised settings arg rest hone hflag hknown =>
    rw [scan_start settings hone, scan_word hflag]
    rcases hknown with hnone | hsome
    · rw [hnone]
    · obtain ⟨c, rest', hcommands⟩ := List.exists_cons_of_ne_nil hsome
      rw [hcommands]
      cases p.command arg <;> rfl

/-- The rest of a line is read with what the settings before it have left. -/
theorem means_scan (settings : List p.Setting) (hone : (commands settings).length ≤ 1)
    (hendpoint : endpoint = (endpoints settings).getLast?)
    (hcommand : command = (commands settings).head?) :
    p.Means (render settings ++ args) (p.scan endpoint command args) := by
  fun_induction scan p endpoint command args generalizing settings with
  | case1 endpoint command =>
    rw [List.append_nil, hendpoint, hcommand]
    exact .given settings hone
  | case2 endpoint command arg args hhelp => exact .help settings arg args hone hhelp
  | case3 endpoint command arg args hhelp hversion =>
    exact .version settings arg args hone hversion
  | case4 endpoint command hhelp hversion => exact .incomplete settings hone
  | case5 endpoint command value rest hhelp hversion ih =>
    have hmore : commands (settings ++ [Setting.endpoint value]) = commands settings := by
      simp [commands, Setting.command?]
    have hread : render (settings ++ [Setting.endpoint value]) ++ rest =
        render settings ++ "--endpoint" :: value :: rest := by
      simp [render, Setting.words]
    have hlast : some value = (endpoints (settings ++ [Setting.endpoint value])).getLast? := by
      simp [endpoints, Setting.endpoint?]
    rw [← hread]
    apply ih _ _ hlast <;> rw [hmore] <;> assumption
  | case6 endpoint command arg args hhelp hversion hother known hknown hnone ih =>
    have hempty : commands settings = [] := by
      rwa [hcommand, Option.isNone_iff_eq_none, List.head?_eq_none_iff] at hnone
    have hmore : commands (settings ++ [Setting.command arg known hknown]) = [known] := by
      simpa [commands, Setting.command?] using hempty
    have hread : render (settings ++ [Setting.command arg known hknown]) ++ args =
        render settings ++ arg :: args := by
      simp [render, Setting.words]
    have hsame : endpoints (settings ++ [Setting.command arg known hknown]) =
        endpoints settings := by
      simp [endpoints, Setting.endpoint?]
    rw [← hread]
    apply ih
    · rw [hmore]
      exact Nat.le_refl 1
    · rw [hsame]
      exact hendpoint
    · rw [hmore]
      rfl
  | case7 endpoint command arg args hhelp hversion hother known hknown hsome =>
    have hgiven : commands settings ≠ [] := by
      intro hempty
      simp [hcommand, hempty] at hsome
    exact .unrecognised settings arg args hone (command_free hknown) (.inr hgiven)
  | case8 endpoint command arg args hhelp hversion hother hunknown =>
    have hflag : arg ∉ flags := by
      simp only [flags, List.mem_cons, List.not_mem_nil, or_false, not_or]
      exact ⟨fun h => hhelp (.inl h), fun h => hhelp (.inr h), fun h => hversion (.inl h),
        fun h => hversion (.inr h), hother⟩
    exact .unrecognised settings arg args hone hflag (.inl hunknown)

theorem scan_iff_means (line : List String) (asked : Except String (Asked κ)) :
    p.scan none none line = asked ↔ p.Means line asked := by
  constructor
  · rintro rfl
    exact means_scan [] (Nat.zero_le 1) rfl rfl
  · exact scan_of_means

end Program
end MehoyRuntime.Daemon
