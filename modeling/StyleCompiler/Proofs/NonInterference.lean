import StyleCompiler.Proofs.Simulation

/-!
# Non-interference between declarations

One registry is threaded through all calls, and themes do write to it. Still a declaration
depends on the calls before it only through the contracts among them: styles and themes change no
name of the registry, and the names are all that a call reads.

* `Call.run_agree`: a call yields the same from registries with the same names, and leaves
  registries with the same names.
* `Call.run_sameNames`: a style or a theme leaves the names as they were.
* `registryAfter_contracts`: the names after a run are those after the contracts of the run.
* `runs_noninterfering`: hence styles and themes may be inserted, deleted and moved without any
  effect on the other declarations and their diagnostics.
-/

namespace StyleCompiler

open Registry

variable {r s : Registry}

/-! ## Registries with the same names -/

/-- Entering a text keeps registries with the same names so. -/
theorem Kind.enter_sameNames (kind : Kind) (h : SameNames r s) (path text : String) :
    SameNames (kind.enter r path text) (kind.enter s path text) := by
  have hlay : SameNames (r.instantiate path text).1 (s.instantiate path text).1 :=
    (sameNames_instantiate r path text).trans (h.trans (sameNames_instantiate s path text).symm)
  cases kind with
  | themeContract => exact h.declare path text
  | style | themeInstance => exact hlay

theorem Call.start_sameNames (c : Call) (h : SameNames r s) :
    SameNames (c.start r) (c.start s) := by
  unfold start
  split
  · exact h.registerBinding c.name
  · exact h

/-- Registries with the same names give every value the same text, and keep doing so. -/
theorem sameNames_simulation : Simulation Eq SameNames :=
  .ofResolve (fun h => h.resolve) fun h kind => kind.enter_sameNames h

/-- **A call reads the names of the registry and nothing else.** -/
theorem Call.run_agree (c : Call) (h : SameNames r s) :
    Step.Alike SameNames id (c.run r) (c.run s) :=
  sameNames_simulation.run (.refl c) (c.start_sameNames h)

/-- Runs from registries with the same names show the same and leave such registries. -/
theorem runCalls_agree (calls : List Call) (h : SameNames r s) :
    (runCalls s calls).map Step.output = (runCalls r calls).map Step.output ∧
      SameNames (registryAfter r calls) (registryAfter s calls) := by
  refine sameNames_simulation.runCalls_id (C := Eq) ?_ ?_ (List.forall₂_refl calls) h
  · rintro c _ rfl
    exact .refl c
  · rintro c _ r s rfl
    exact c.start_sameNames

/-! ## Styles and themes -/

/-- The entries of a theme change no name. -/
theorem runTheme_themeInstance_sameNames (name : String) (es : List ThemeEntry) (r : Registry) :
    SameNames (runTheme .themeInstance name r es).registry r := by
  induction es generalizing r with
  | nil => exact SameNames.refl r
  | cons e es ih =>
    cases e with
    | report d => exact ih r
    | leaf path property value =>
      simp only [runTheme]
      split
      · rename_i text _
        exact (ih _).trans (sameNames_instantiate r path text)
      · exact ih r

/-- **A style or a theme changes no name of the registry.** -/
theorem Call.run_sameNames (c : Call) (hc : c.kind ≠ .themeContract) (r : Registry) :
    SameNames (c.run r).registry r := by
  cases hf : c.form with
  | style properties =>
    rw [run_of_style hf]
    exact SameNames.refl r
  | entries properties =>
    have hk : c.kind = .themeInstance := by
      cases hk : c.kind with
      | style => exact absurd hk (form_eq_entries.mp hf).1
      | themeContract => exact absurd hk hc
      | themeInstance => rfl
    rw [run_of_entries hf, start_of_ne hc]
    unfold runEntries
    rw [hk]
    exact runTheme_themeInstance_sameNames c.name _ r
  | rejected =>
    rw [run_of_rejected hf, start_of_ne hc]
    exact SameNames.refl r

/-! ## Runs -/

/-- What the steps of a run show, in order. -/
def outputs (calls : List Call) : List (Declaration × List Diagnostic) :=
  (runCalls {} calls).map Step.output

/-- The contracts among calls. -/
def contractsOf (calls : List Call) : List Call := calls.filter fun c => c.kind = .themeContract

/-- **The names after a run are those after the contracts of the run.** -/
theorem registryAfter_contracts (calls : List Call) (r : Registry) :
    SameNames (registryAfter r calls) (registryAfter r (contractsOf calls)) := by
  induction calls generalizing r with
  | nil => exact SameNames.refl r
  | cons c calls ih =>
    by_cases hc : c.kind = .themeContract
    · have hkeep : contractsOf (c :: calls) = c :: contractsOf calls := by
        simp [contractsOf, hc]
      rw [hkeep]
      exact ih _
    · have hdrop : contractsOf (c :: calls) = contractsOf calls := by
        simp [contractsOf, hc]
      rw [hdrop]
      -- the call left out of the second run changes no name of the first
      exact (runCalls_agree calls (c.run_sameNames hc r)).2.trans (ih r)

/-- A style or a theme among calls shows its own output and changes no other. -/
theorem outputs_eraseIdx (before after : List Call) {c : Call} (hc : c.kind ≠ .themeContract) :
    (outputs (before ++ c :: after)).eraseIdx before.length = outputs (before ++ after) := by
  have hlen : ((runCalls {} before).map Step.output).length = before.length := by simp
  have hafter := (runCalls_agree after (c.run_sameNames hc (registryAfter {} before))).1
  unfold outputs
  rw [runCalls_append, runCalls_append, List.map_append, List.map_append,
    List.eraseIdx_append_of_length_le (Nat.le_of_eq hlen), hlen, Nat.sub_self]
  simp only [runCalls, List.map_cons, List.eraseIdx_cons_zero, hafter]

/-- **Declarations do not interfere.** Before the `i`-th call the registry has the names that the
contracts among the calls before it give, and the call yields the same declaration and diagnostics
as after those contracts alone. Hence a style or a theme may be inserted or deleted anywhere, and
moved to any other place, and every other call shows what it showed. -/
theorem runs_noninterfering :
    (∀ (calls : List Call) (i : Nat),
      (registryAfter {} (calls.take i)).paths =
          (registryAfter {} (contractsOf (calls.take i))).paths ∧
        (registryAfter {} (calls.take i)).bindings =
          (registryAfter {} (contractsOf (calls.take i))).bindings ∧
        ∀ c ∈ calls[i]?,
          (c.run (registryAfter {} (calls.take i))).declaration =
              (c.run (registryAfter {} (contractsOf (calls.take i)))).declaration ∧
            (c.run (registryAfter {} (calls.take i))).diagnostics =
              (c.run (registryAfter {} (contractsOf (calls.take i)))).diagnostics) ∧
      ∀ (before between after : List Call) (c : Call), c.kind ≠ .themeContract →
        (outputs (before ++ c :: after)).eraseIdx before.length = outputs (before ++ after) ∧
          (outputs (before ++ c :: (between ++ after))).eraseIdx before.length =
            (outputs (before ++ between ++ c :: after)).eraseIdx (before ++ between).length := by
  refine ⟨fun calls i => ?_,
    fun before between after c hc => ⟨outputs_eraseIdx before after hc, ?_⟩⟩
  · have hnames := registryAfter_contracts (calls.take i) {}
    refine ⟨hnames.paths, hnames.bindings, fun c _ => ?_⟩
    have houtput := (c.run_agree hnames).output_eq
    rw [mapOutput_id] at houtput
    exact ⟨congrArg Prod.fst houtput.symm, congrArg Prod.snd houtput.symm⟩
  · rw [outputs_eraseIdx before (between ++ after) hc,
      outputs_eraseIdx (before ++ between) after hc, List.append_assoc]

/-- The theme of the sample module, between its contract and its style. -/
theorem runs_noninterfering_sample :
    (Sample.card ∈ Sample.source.calls[2]? ∧
      (Sample.card.run (registryAfter {} (Sample.source.calls.take 2))).declaration =
        (Sample.card.run
          (registryAfter {} (contractsOf (Sample.source.calls.take 2)))).declaration) ∧
      Sample.theme.kind ≠ .themeContract ∧
      (outputs ([Sample.contract] ++ Sample.theme :: [Sample.card])).eraseIdx 1 =
        outputs [Sample.contract, Sample.card] :=
  ⟨⟨rfl, ((runs_noninterfering.1 Sample.source.calls 2).2.2 Sample.card rfl).1⟩, by decide,
    (runs_noninterfering.2 [Sample.contract] [] [Sample.card] Sample.theme (by decide)).1⟩

end StyleCompiler
