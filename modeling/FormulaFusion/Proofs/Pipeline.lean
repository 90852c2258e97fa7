import Mathlib.Data.List.Basic
import FormulaFusion.Pipeline

/-!
# The order of passes over whole histories

A pipeline keeps its passes in the order in which the last run has left them, followed by those added
since.  When they were registered is not recorded.  It need not be: arranging by stages keeps the passes
of one stage in their order (`Pipeline.filter_arranged`), so after any sequence of additions and runs
(`Pipeline.History`) each stage still has its passes in the order of registration
(`Pipeline.History.filter_passes`), and the next run goes by stage and registration
(`Pipeline.History.run_in_order`).

Passes may have effects besides the graph: they read and change a state of any type `σ`, the world.
`Pipeline.Executes` says what it means to run passes one after the other in a world until one fails.
-/

namespace FormulaFusion

namespace Pipeline

/-! ## Stages -/

section Stages

variable {m : Type → Type}

/-- A pass with its number runs before another: its stage comes first or, in the same stage, its
number does. -/
def Precedes (x y : Pass m × Nat) : Prop :=
  x.1.stage.before y.1.stage = true ∨ x.1.stage = y.1.stage ∧ x.2 < y.2

/-- Passes with their numbers in the order of registration, brought into the order of their stages. -/
def numbered (registered : List (Pass m)) : List (Pass m × Nat) :=
  Stage.all.flatMap fun stage => registered.zipIdx.filter fun entry => entry.1.stage = stage

/-- Items taken stage by stage are those of validation followed by those of fusion. -/
theorem flatMap_stages {α : Type*} (stageOf : α → Stage) (items : List α) :
    (Stage.all.flatMap fun stage => items.filter fun item => stageOf item = stage) =
      items.filter (fun item => stageOf item = .validation) ++
        items.filter (fun item => stageOf item = .fusion) := by
  simp [Stage.all]

theorem passes_arranged (p : Pipeline m) :
    p.arranged.passes = p.passes.filter (fun pass => pass.stage = .validation) ++
      p.passes.filter (fun pass => pass.stage = .fusion) :=
  flatMap_stages Pass.stage p.passes

theorem numbered_eq (registered : List (Pass m)) :
    numbered registered = registered.zipIdx.filter (fun entry => entry.1.stage = .validation) ++
      registered.zipIdx.filter (fun entry => entry.1.stage = .fusion) :=
  flatMap_stages (fun entry : Pass m × Nat => entry.1.stage) registered.zipIdx

/-- Arranging keeps the passes of one stage in their order. -/
theorem filter_arranged (p : Pipeline m) (stage : Stage) :
    p.arranged.passes.filter (fun pass => pass.stage = stage) =
      p.passes.filter fun pass => pass.stage = stage := by
  have none : ∀ s t : Stage, s ≠ t →
      (p.passes.filter (fun pass => pass.stage = s)).filter (fun pass => pass.stage = t) = [] := by
    intro s t apart
    refine List.filter_eq_nil_iff.2 fun pass mem => ?_
    have here : pass.stage = s := by simpa using (List.mem_filter.1 mem).2
    simpa [here] using apart
  rw [passes_arranged, List.filter_append]
  cases stage with
  | validation =>
    rw [none .fusion .validation (by decide), List.append_nil]
    simp [List.filter_filter]
  | fusion =>
    rw [none .validation .fusion (by decide), List.nil_append]
    simp [List.filter_filter]

/-- Arranging depends only on the order within each stage. -/
theorem arranged_congr {p q : Pipeline m}
    (same : ∀ stage, p.passes.filter (fun pass => pass.stage = stage) =
      q.passes.filter fun pass => pass.stage = stage) : p.arranged = q.arranged := by
  simp only [arranged, same]

theorem map_numbered (registered : List (Pass m)) :
    (numbered registered).map Prod.fst = (Pipeline.mk registered).arranged.passes := by
  have filtered : ∀ stage : Stage,
      (registered.zipIdx.filter fun entry => entry.1.stage = stage).map Prod.fst =
        registered.filter fun pass => pass.stage = stage := by
    intro stage
    calc (registered.zipIdx.filter fun entry => entry.1.stage = stage).map Prod.fst
        = (registered.zipIdx.map Prod.fst).filter fun pass => pass.stage = stage := by
          rw [List.filter_map]
          rfl
      _ = registered.filter fun pass => pass.stage = stage := by rw [List.zipIdx_map_fst]
  rw [numbered_eq, List.map_append, filtered, filtered, passes_arranged]

theorem numbered_perm (registered : List (Pass m)) :
    (numbered registered).Perm registered.zipIdx := by
  have rest : (fun entry : Pass m × Nat => decide (entry.1.stage = .fusion)) =
      fun entry => !decide (entry.1.stage = .validation) := by
    funext entry
    cases entry.1.stage <;> rfl
  rw [numbered_eq, rest]
  exact List.filter_append_perm _ _

theorem pairwise_numbered (registered : List (Pass m)) :
    (numbered registered).Pairwise Precedes := by
  have increasing : registered.zipIdx.Pairwise fun x y => x.2 < y.2 := by
    rw [← List.pairwise_map (f := Prod.snd), List.zipIdx_map_snd]
    exact List.pairwise_lt_range'
  have within : ∀ stage : Stage,
      (registered.zipIdx.filter fun entry => entry.1.stage = stage).Pairwise Precedes := by
    intro stage
    refine (increasing.filter _).imp_of_mem fun x_mem y_mem earlier => .inr ⟨?_, earlier⟩
    simp only [List.mem_filter, decide_eq_true_eq] at x_mem y_mem
    rw [x_mem.2, y_mem.2]
  rw [numbered_eq]
  refine List.pairwise_append.2 ⟨within .validation, within .fusion, fun x x_mem y y_mem => .inl ?_⟩
  simp only [List.mem_filter, decide_eq_true_eq] at x_mem y_mem
  rw [x_mem.2, y_mem.2]
  rfl

end Stages

/-! ## Running passes one after the other -/

section Runs

variable {σ : Type}

/-- Passes succeed one after the other, each on the graph and in the world that the one before has
left; `changes` is what they say about changes. -/
inductive Succeed : List (Pass (StateM σ)) → Graph → σ → List Bool → Graph → σ → Prop
  | none (g : Graph) (world : σ) : Succeed [] g world [] g world
  | next {pass : Pass (StateM σ)} {rest : List (Pass (StateM σ))} {changed : Bool}
      {changes : List Bool} {g h k : Graph} {world world' world'' : σ} :
      (pass.run g).run world = (⟨h, .ok changed⟩, world') →
      Succeed rest h world' changes k world'' →
      Succeed (pass :: rest) g world (changed :: changes) k world''

/-- What running passes one after the other comes to.  If all succeed, the result says whether one of
them changed the graph.  Otherwise the result, the graph and the world are those that the first failing
pass has left. -/
inductive Executes (passes : List (Pass (StateM σ))) (g : Graph) (world : σ) :
    Outcome Bool × σ → Prop
  | completed {changes : List Bool} {h : Graph} {after : σ} :
      Succeed passes g world changes h after →
      Executes passes g world (⟨h, .ok (changes.any id)⟩, after)
  | stopped {before rest : List (Pass (StateM σ))} {pass : Pass (StateM σ)} {changes : List Bool}
      {error : Error} {h k : Graph} {middle after : σ} :
      passes = before ++ pass :: rest → Succeed before g world changes h middle →
      (pass.run h).run middle = (⟨k, .error error⟩, after) →
      Executes passes g world (⟨k, .error error⟩, after)

/-- One pass runs, and the others do if it succeeds. -/
theorem runAll_cons (pass : Pass (StateM σ)) (rest : List (Pass (StateM σ))) (changed : Bool)
    (g : Graph) (world : σ) :
    (runAll (pass :: rest) changed g).run world =
      match (pass.run g).run world with
      | (⟨h, .ok more⟩, after) => (runAll rest (changed || more) h).run after
      | (⟨h, .error error⟩, after) => (⟨h, .error error⟩, after) := by
  rw [runAll, StateT.run_bind]
  rcases (pass.run g).run world with ⟨⟨h, _ | _⟩, after⟩ <;> rfl

/-- After passes that succeed, the rest runs on what they have left. -/
theorem Succeed.runAll_append {before : List (Pass (StateM σ))} {changes : List Bool} {g h : Graph}
    {world after : σ} (succeed : Succeed before g world changes h after)
    (rest : List (Pass (StateM σ))) (changed : Bool) :
    (runAll (before ++ rest) changed g).run world =
      (runAll rest (changed || changes.any id) h).run after := by
  induction succeed generalizing changed with
  | none => simp
  | next step _ ih =>
    rw [List.cons_append, runAll_cons, step]
    simpa [Bool.or_assoc] using ih (changed || _)

/-- Either all passes succeed, or one fails after all before it have succeeded. -/
theorem succeed_or_fails (passes : List (Pass (StateM σ))) (g : Graph) (world : σ) :
    (∃ changes h after, Succeed passes g world changes h after) ∨
    ∃ before pass rest changes h middle error k after, passes = before ++ pass :: rest ∧
      Succeed before g world changes h middle ∧
      (pass.run h).run middle = (⟨k, .error error⟩, after) := by
  induction passes generalizing g world with
  | nil => exact .inl ⟨[], g, world, .none g world⟩
  | cons pass passes ih =>
    rcases step : (pass.run g).run world with ⟨⟨h, result⟩, world'⟩
    cases result with
    | error error =>
      exact .inr ⟨[], pass, passes, [], g, world, error, h, world', rfl, .none g world, step⟩
    | ok changed =>
      rcases ih h world' with ⟨changes, k, after, succeed⟩ |
        ⟨before, failing, rest, changes, k, middle, error, l, after, rfl, succeed, failed⟩
      · exact .inl ⟨changed :: changes, k, after, .next step succeed⟩
      · exact .inr ⟨pass :: before, failing, rest, changed :: changes, k, middle, error, l, after,
          rfl, .next step succeed, failed⟩

theorem executes_runAll (passes : List (Pass (StateM σ))) (g : Graph) (world : σ) :
    Executes passes g world ((runAll passes false g).run world) := by
  rcases succeed_or_fails passes g world with ⟨changes, h, after, succeed⟩ |
    ⟨before, pass, rest, changes, h, middle, error, k, after, rfl, succeed, failed⟩
  · have run := succeed.runAll_append [] false
    rw [List.append_nil, Bool.false_or] at run
    rw [run]
    exact .completed succeed
  · rw [succeed.runAll_append (pass :: rest) false, runAll_cons, failed]
    exact .stopped rfl succeed failed

/-- A run leaves the arranged pipeline, whatever comes of it. -/
theorem run_eq (p : Pipeline (StateM σ)) (g : Graph) (world : σ) :
    (p.run g).run world = ((p.arranged, ((runAll p.arranged.passes false g).run world).1),
      ((runAll p.arranged.passes false g).run world).2) := rfl

/-! ## Histories -/

/-- The pipeline comes from the empty one by additions and runs in any order, on any graphs and in any
worlds; `registered` is what was added, in this order. -/
inductive History : List (Pass (StateM σ)) → Pipeline (StateM σ) → Prop
  | empty : History [] empty
  | add {registered : List (Pass (StateM σ))} {p : Pipeline (StateM σ)} (pass : Pass (StateM σ)) :
      History registered p → History (registered ++ [pass]) (p.add pass)
  | run {registered : List (Pass (StateM σ))} {p : Pipeline (StateM σ)} (g : Graph) (world : σ) :
      History registered p → History registered ((p.run g).run world).1.1

/-- Within each stage, a pipeline has its passes in the order of registration. -/
theorem History.filter_passes {registered : List (Pass (StateM σ))} {p : Pipeline (StateM σ)}
    (history : History registered p) (stage : Stage) :
    p.passes.filter (fun pass => pass.stage = stage) =
      registered.filter fun pass => pass.stage = stage := by
  induction history with
  | empty => rfl
  | add pass _ ih => rw [Pipeline.add, List.filter_append, List.filter_append, ih]
  | @run registered p g world _ ih => rw [run_eq, filter_arranged, ih]

/-- After any additions and runs, a run takes the passes registered so far by stage and, within a stage,
by registration.  It runs them one after the other on the graph that the one before has left; the first
one that fails gives the error and the last graph, and if none fails the result says whether one of them
changed the graph. -/
theorem History.run_in_order {registered : List (Pass (StateM σ))} {p : Pipeline (StateM σ)}
    (history : History registered p) (g : Graph) (world : σ) :
    ∃ order : List (Pass (StateM σ) × Nat),
      order.Perm registered.zipIdx ∧ order.Pairwise Precedes ∧
      ∃ outcome, (p.run g).run world = ((⟨order.map Prod.fst⟩, outcome.1), outcome.2) ∧
        Executes (order.map Prod.fst) g world outcome := by
  have arranged : p.arranged = (Pipeline.mk registered).arranged :=
    arranged_congr history.filter_passes
  refine ⟨numbered registered, numbered_perm registered, pairwise_numbered registered,
    _, ?_, executes_runAll _ g world⟩
  rw [run_eq, arranged, map_numbered]

/-! ## A pass added after a run -/

/-- A pass that notes its name in a log and refuses every graph. -/
def refusal : Pass (StateM (List String)) where
  name := "refusal"
  stage := .validation
  run g := do
    modify fun log => log ++ ["refusal"]
    return ⟨g, .error (.rejected "no graph is fine")⟩

/-- Validation and fusion, run once on the empty graph, and then the refusal. -/
def refusingLate : Pipeline (StateM (List String)) :=
  let standard : Pipeline (StateM (List String)) := standard []
  ((standard.run .empty).run []).1.1.add refusal

theorem History.run_in_order_refusingLate :
    History [.validation, .fusion {}, refusal] refusingLate ∧
      refusingLate.passes.map Pass.name = ["validate_graph", "fuse_expression", "refusal"] ∧
      ∃ order : List (Pass (StateM (List String)) × Nat),
        order.Perm [(.validation, 0), (.fusion {}, 1), (refusal, 2)] ∧ order.Pairwise Precedes ∧
        order.map (fun entry => entry.1.name) = ["validate_graph", "refusal", "fuse_expression"] ∧
        Executes (order.map Prod.fst) .empty []
          (⟨.empty, .error (.rejected "no graph is fine")⟩, ["refusal"]) := by
  have history : History [.validation, .fusion {}, refusal] refusingLate :=
    (((History.empty.add .validation).add (.fusion {})).run .empty []).add refusal
  obtain ⟨order, perm, increasing, outcome, run, executes⟩ := run_in_order history .empty []
  have passes := congrArg (fun result => result.1.1.passes.map Pass.name) run
  have ended : outcome = (⟨.empty, .error (.rejected "no graph is fine")⟩, ["refusal"]) :=
    (congrArg (fun result => (result.1.2, result.2)) run).symm
  refine ⟨history, rfl, order, perm, increasing, ?_, ended ▸ executes⟩
  rw [List.map_map] at passes
  exact passes.symm

end Runs

end Pipeline

end FormulaFusion
