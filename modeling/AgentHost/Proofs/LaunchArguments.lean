import AgentHost.Launch

namespace AgentHost.Launch

def Opens (flags words : List String) : Prop := ∀ word ∈ words.head?, word ∈ flags

def Past (flags words : List String) : Prop := ∀ word ∈ words.head?, word ∉ flags

/-- A stretch of arguments that can be recognised. If it is not empty it starts with one of `flags`.
    If what follows starts with none of them, the words determine where the stretch ends, and values
    written with the same words satisfy `same`. -/
structure Legible {σ : Type} (flags : List String) (stretch : σ → List String) (same : σ → σ → Prop) :
    Prop where
  opens : ∀ s, Opens flags (stretch s)
  reads : ∀ {s t : σ} {rest rest' : List String}, Past flags rest → Past flags rest' →
    stretch s ++ rest = stretch t ++ rest' → same s t ∧ rest = rest'

def CommaFree (tools : Option (List String)) : Prop :=
  ∀ names ∈ tools, ∀ name ∈ names, ',' ∉ name.toList

section Stretches

variable {σ : Type} {flag : String} {flags others words rest rest' : List String}
  {stretch stretch' : σ → List String} {same same' : σ → σ → Prop}

theorem past_nil : Past flags [] := nofun

theorem Past.left (past : Past (flags ++ others) words) : Past flags words :=
  fun word first member => past word first (List.mem_append_left others member)

theorem Past.right (past : Past (flags ++ others) words) : Past others words :=
  fun word first member => past word first (List.mem_append_right flags member)

theorem Opens.append (opens : Opens flags words) (next : Opens others rest) :
    Opens (flags ++ others) (words ++ rest) := by
  intro word first
  cases words with
  | nil => exact List.mem_append_right flags (next word first)
  | cons => exact List.mem_append_left others (opens word first)

theorem Opens.past_append (opens : Opens others words) (distinct : ∀ flag ∈ others, flag ∉ flags)
    (past : Past flags rest) : Past flags (words ++ rest) := by
  intro word first
  cases words with
  | nil => exact past word first
  | cons => exact distinct word (opens word first)

theorem Opens.eq_nil_of_past (opens : Opens flags words) (past : Past flags (words ++ rest)) :
    words = [] := by
  cases words with
  | nil => rfl
  | cons word => exact absurd (opens word rfl) (past word rfl)

theorem Legible.followed (first : Legible flags stretch same) (second : Legible others stretch' same')
    (distinct : ∀ flag ∈ others, flag ∉ flags) :
    Legible (flags ++ others) (fun s => stretch s ++ stretch' s)
      (fun s t => same s t ∧ same' s t) where
  opens s := (first.opens s).append (second.opens s)
  reads {s t} _ _ past past' written := by
    rw [List.append_assoc, List.append_assoc] at written
    have after := (second.opens s).past_append distinct past.left
    have after' := (second.opens t).past_append distinct past'.left
    obtain ⟨one, written⟩ := first.reads after after' written
    obtain ⟨other, ended⟩ := second.reads past.right past'.right written
    exact ⟨⟨one, other⟩, ended⟩

/-- If all non-empty stretches have the same length, the first word tells whether the stretch is
    empty. -/
theorem Legible.of_length (length : Nat) (opens : ∀ s, Opens flags (stretch s))
    (sized : ∀ s, stretch s = [] ∨ (stretch s).length = length)
    (told : ∀ s t, stretch s = stretch t → same s t) : Legible flags stretch same where
  opens := opens
  reads {s t rest rest'} past past' written := by
    have level : (stretch s).length = (stretch t).length := by
      rcases sized s with empty | long <;> rcases sized t with empty' | long'
      · rw [empty, empty']
      · rw [empty, List.nil_append] at written
        rw [empty, (opens t).eq_nil_of_past (written ▸ past)]
      · rw [empty', List.nil_append] at written
        rw [empty', (opens s).eq_nil_of_past (written ▸ past')]
      · rw [long, long']
    obtain ⟨stretches, ended⟩ := List.append_inj written level
    exact ⟨told s t stretches, ended⟩

theorem flagged_legible (flag : String) (get : σ → Option String) :
    Legible [flag] (fun s => flagged flag (get s)) (fun s t => get s = get t) := by
  refine .of_length 2 (fun s => ?_) (fun s => ?_) (fun s t written => ?_)
  · cases get s <;> simp [flagged, Opens]
  · cases get s <;> simp [flagged]
  · cases one : get s <;> cases other : get t <;> simp_all [flagged]

theorem switch_legible (flag : String) (get : σ → Bool) :
    Legible [flag] (fun s => if get s then [flag] else []) (fun s t => get s = get t) := by
  refine .of_length 1 (fun s => ?_) (fun s => ?_) (fun s t written => ?_)
  · cases get s <;> simp [Opens]
  · cases get s <;> simp
  · cases one : get s <;> cases other : get t <;> simp_all

theorem repeated_reads {values values' : List String} (past : Past [flag] rest) (past' : Past [flag] rest')
    (written : (values.flatMap fun value => [flag, value]) ++ rest =
      (values'.flatMap fun value => [flag, value]) ++ rest') : values = values' ∧ rest = rest' := by
  -- what follows the values does not start with the flag, so the first list cannot end early
  induction values generalizing values' with
  | nil =>
    cases values' with
    | nil => exact ⟨rfl, written⟩
    | cons =>
      subst written
      exact absurd (List.mem_singleton_self flag) (past flag rfl)
  | cons value values ih =>
    cases values' with
    | nil =>
      subst written
      exact absurd (List.mem_singleton_self flag) (past' flag rfl)
    | cons =>
      simp only [List.flatMap_cons, List.cons_append, List.nil_append, List.cons.injEq, true_and] at written
      obtain ⟨rfl, written⟩ := written
      obtain ⟨rfl, ended⟩ := ih written
      exact ⟨rfl, ended⟩

theorem repeated_legible (flag : String) (get : σ → List String) :
    Legible [flag] (fun s => (get s).flatMap fun value => [flag, value])
      (fun s t => get s = get t) where
  opens s := by cases get s <;> simp [Opens]
  reads past past' written := repeated_reads past past' written

end Stretches

theorem intercalate_inj {names names' : List String} (some : names ≠ []) (some' : names' ≠ [])
    (plain : ∀ name ∈ names, ',' ∉ name.toList) (plain' : ∀ name ∈ names', ',' ∉ name.toList)
    (written : ",".intercalate names = ",".intercalate names') : names = names' := by
  have split {names : List String} (some : names ≠ []) (plain : ∀ name ∈ names, ',' ∉ name.toList) :
      (",".intercalate names).toList.splitOn ',' = names.map String.toList := by
    rw [String.toList_intercalate]
    exact List.splitOn_intercalate ',' (by simpa using plain) (by simpa using some)
  refine (List.map_inj_right fun _ _ => String.toList_inj.mp).mp ?_
  rw [← split some plain, ← split some' plain', written]

theorem toolFlags_inj {tools tools' : Option (List String)} (plain : CommaFree tools)
    (plain' : CommaFree tools') (written : toolFlags tools = toolFlags tools') : tools = tools' := by
  rcases tools with _ | _ | ⟨name, names⟩ <;> rcases tools' with _ | _ | ⟨name', names'⟩ <;>
    simp only [toolFlags, List.cons.injEq, String.reduceEq, reduceCtorEq, false_and, and_true, true_and]
      at written ⊢
  -- the remaining case: both lists name at least one tool
  exact congrArg some (intercalate_inj nofun nofun (plain _ rfl) (plain' _ rfl) written)

theorem toolFlags_legible {σ : Type} (get : σ → Option (List String)) :
    Legible ["--tools", "--allowedTools"] (fun s => toolFlags (get s))
      (fun s t => CommaFree (get s) → CommaFree (get t) → get s = get t) := by
  refine .of_length 2 (fun s => ?_) (fun s => ?_)
    (fun s t written plain plain' => toolFlags_inj plain plain' written)
  · rcases get s with _ | _ | _ <;> simp [toolFlags, Opens]
  · rcases get s with _ | _ | _ <;> simp [toolFlags]

def options (s : AgentSettings) : List String :=
  flagged "--fallback-model" s.fallbackModel
    ++ (flagged "--max-budget-usd" (s.maxBudgetUsd.map Decimal.amount)
    ++ (flagged "--append-system-prompt" s.appendSystemPrompt
    ++ (flagged "--permission-mode" s.permissionMode
    ++ ((if s.includePartialMessages then ["--include-partial-messages"] else [])
    ++ (toolFlags s.allowedTools
    ++ s.addDirs.flatMap fun dir => ["--add-dir", dir])))))

theorem argumentsFor_eq (s : AgentSettings) :
    argumentsFor s =
      s.executableArgs ++ (protocolFlags ++ ("--model" :: s.model :: options s ++ s.extraArgs)) := by
  simp only [argumentsFor, options, List.append_assoc, List.cons_append, List.nil_append]

def SameOptions (s t : AgentSettings) : Prop :=
  s.fallbackModel = t.fallbackModel ∧
  s.maxBudgetUsd.map Decimal.amount = t.maxBudgetUsd.map Decimal.amount ∧
  s.appendSystemPrompt = t.appendSystemPrompt ∧ s.permissionMode = t.permissionMode ∧
  s.includePartialMessages = t.includePartialMessages ∧
  (CommaFree s.allowedTools → CommaFree t.allowedTools → s.allowedTools = t.allowedTools) ∧
  s.addDirs = t.addDirs

theorem options_legible :
    Legible ["--fallback-model", "--max-budget-usd", "--append-system-prompt", "--permission-mode",
      "--include-partial-messages", "--tools", "--allowedTools", "--add-dir"] options SameOptions := by
  have dirs := repeated_legible "--add-dir" fun s : AgentSettings => s.addDirs
  have tools := (toolFlags_legible fun s : AgentSettings => s.allowedTools).followed dirs (by decide)
  have partials := (switch_legible "--include-partial-messages" (·.includePartialMessages)).followed
    tools (by decide)
  have mode := (flagged_legible "--permission-mode" (·.permissionMode)).followed partials (by decide)
  have prompt := (flagged_legible "--append-system-prompt" (·.appendSystemPrompt)).followed
    mode (by decide)
  have budget := (flagged_legible "--max-budget-usd" (·.maxBudgetUsd.map Decimal.amount)).followed
    prompt (by decide)
  exact (flagged_legible "--fallback-model" (·.fallbackModel)).followed budget (by decide)

/-- Two settings with the same executable and extra arguments, and without commas in tool names,
    give the same arguments exactly if they have the same model and agree in all options. Budgets
    agree if their texts do. -/
theorem arguments_eq_iff {s t : AgentSettings} (before : s.executableArgs = t.executableArgs)
    (after : s.extraArgs = t.extraArgs) (plain : CommaFree s.allowedTools)
    (plain' : CommaFree t.allowedTools) :
    argumentsFor s = argumentsFor t ↔
      s.model = t.model ∧ s.fallbackModel = t.fallbackModel ∧
      s.maxBudgetUsd.map Decimal.amount = t.maxBudgetUsd.map Decimal.amount ∧
      s.appendSystemPrompt = t.appendSystemPrompt ∧ s.permissionMode = t.permissionMode ∧
      s.includePartialMessages = t.includePartialMessages ∧ s.allowedTools = t.allowedTools ∧
      s.addDirs = t.addDirs := by
  have arguments : argumentsFor s = argumentsFor t ↔ s.model = t.model ∧ options s = options t := by
    rw [argumentsFor_eq, argumentsFor_eq, before, after, List.append_right_inj, List.append_right_inj,
      List.append_left_inj, List.cons.injEq, List.cons.injEq, eq_self, true_and]
  rw [arguments]
  refine and_congr_right fun _ => ⟨fun written => ?_, ?_⟩
  · obtain ⟨⟨fallback, budget, prompt, mode, partials, tools, dirs⟩, -⟩ :=
      options_legible.reads past_nil past_nil (congrArg (· ++ []) written)
    exact ⟨fallback, budget, prompt, mode, partials, tools plain plain', dirs⟩
  · rintro ⟨fallback, budget, prompt, mode, partials, tools, dirs⟩
    rw [options, options, fallback, budget, prompt, mode, partials, tools, dirs]

/-- A system prompt that is the directory flag, and a directory that is the system prompt flag: the
    same words in different order. -/
theorem prompt_told_from_dirs :
    let one : AgentSettings :=
      { appendSystemPrompt := some "--add-dir", allowedTools := some ["Read", ""], addDirs := ["--add-dir"] }
    let other : AgentSettings :=
      { allowedTools := some ["Read", ""], addDirs := ["--append-system-prompt", "--add-dir"] }
    one.executableArgs = other.executableArgs ∧ one.extraArgs = other.extraArgs ∧
      CommaFree one.allowedTools ∧ CommaFree other.allowedTools ∧
      (argumentsFor one).Perm (argumentsFor other) ∧ argumentsFor one ≠ argumentsFor other := by
  intro one other
  have plain : CommaFree (some ["Read", ""]) := by simp [CommaFree]
  refine ⟨rfl, rfl, plain, plain, by decide, fun same => ?_⟩
  have told := (arguments_eq_iff (s := one) (t := other) rfl rfl plain plain).mp same
  exact absurd told.2.2.2.1 (by decide)

/-- With a comma in the name of a tool, different settings give the same arguments. -/
example :
    argumentsFor { allowedTools := some ["Read,Grep"] } =
      argumentsFor { allowedTools := some ["Read", "Grep"] } := by
  decide

end AgentHost.Launch
