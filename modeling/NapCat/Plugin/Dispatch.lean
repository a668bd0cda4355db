/-
A dispatch over all plugins of the registry. The loop returns at the first plugin that fails, so
which plugins get the event and whose actions the caller sees depends on where in the order of the
hash map the failures stand; it is settled for every order and every assignment of outcomes.
-/
import NapCat.Lib.Fallible
import NapCat.Lib.Rounds
import NapCat.Plugin.Manager

namespace NapCat.Plugin.Manager

open Threads

/-- What each plugin does with the event of the dispatch. -/
abbrev Outcome := String × Nat → Except PluginError (Option PluginAction)

/-- The plugins that an event was delivered to, in turn, and what the dispatch returned. -/
structure Dispatched where
  delivered : List (String × Nat)
  result : Except PluginError (List (String × PluginAction))

/-- The loop of `dispatch`, with the actions so far. -/
def dispatchAll (outcome : Outcome) : List (String × Nat) → List (String × PluginAction) → Dispatched
  | [], actions => ⟨[], .ok actions⟩
  | x :: rest, actions =>
    match outcome x with
    | .error e => ⟨[x], .error e⟩
    | .ok action =>
      let d := dispatchAll outcome rest (collect actions x.1 action)
      ⟨x :: d.delivered, d.result⟩

/-- The loaded plugins, in the order of the registry. -/
def registered (g : Shared) : List (String × Nat) := g.plugins.entries.map fun e => (e.1, e.2)

def fails (outcome : Outcome) (x : String × Nat) : Bool := !(outcome x).isOk

/-- The named action of a plugin that succeeds with one. -/
def emitted (outcome : Outcome) (x : String × Nat) : Option (String × PluginAction) :=
  match outcome x with
  | .ok action => action.map fun a => (x.1, a)
  | .error _ => none

/-- Every plugin gets the event once, and the caller gets the action of every plugin that gives one. -/
structure Isolated (plugins : List (String × Nat)) (outcome : Outcome) (d : Dispatched) : Prop where
  delivered : d.delivered.Perm plugins
  returned : ∀ x ∈ plugins, ∀ action, outcome x = .ok (some action) →
    ∃ actions, d.result = .ok actions ∧ (x.1, action) ∈ actions

/-- No plugin fails, or the last one in the order does, and the others succeed without an action. -/
def FailsHarmlessly (outcome : Outcome) (order : List (String × Nat)) : Prop :=
  (∀ x ∈ order, fails outcome x = false) ∨
    ∃ first last, order = first ++ [last] ∧ fails outcome last = true ∧ ∀ x ∈ first, outcome x = .ok none

/-! ## What the loop delivers and returns -/

theorem fails_false_iff {outcome : Outcome} {x : String × Nat} :
    fails outcome x = false ↔ ∃ action, outcome x = .ok action := by
  rw [fails, Bool.not_eq_false', Fallible.isOk_iff]

theorem collect_eq (actions : List (String × PluginAction)) (name : String) (action : Option PluginAction) :
    collect actions name action = actions ++ (action.map fun a => (name, a)).toList := by
  cases action with
  | none => exact (List.append_nil actions).symm
  | some a => rfl

/-- The event reaches the plugins up to the first that fails. -/
theorem dispatchAll_delivered (outcome : Outcome) :
    ∀ (order : List (String × Nat)) (actions : List (String × PluginAction)),
    (dispatchAll outcome order actions).delivered = Rounds.upTo (fails outcome) order
  | [], _ => rfl
  | x :: rest, actions => by
    rw [dispatchAll, Rounds.upTo, fails]
    cases hx : outcome x with
    | error e => rfl
    | ok action => exact congrArg (x :: ·) (dispatchAll_delivered outcome rest _)

theorem dispatchAll_ok (outcome : Outcome) :
    ∀ (order : List (String × Nat)) (actions : List (String × PluginAction)),
    (∀ x ∈ order, fails outcome x = false) →
    (dispatchAll outcome order actions).result = .ok (actions ++ order.filterMap (emitted outcome))
  | [], actions, _ => by simp [dispatchAll]
  | x :: rest, actions, h => by
    obtain ⟨hx, hrest⟩ := List.forall_mem_cons.1 h
    obtain ⟨action, hx⟩ := fails_false_iff.1 hx
    have hemitted : emitted outcome x = action.map fun a => (x.1, a) := by rw [emitted, hx]
    simp only [dispatchAll, hx]
    rw [dispatchAll_ok outcome rest _ hrest, collect_eq, List.filterMap_cons, hemitted, List.append_assoc]
    cases action <;> rfl

/-- One plugin that fails is enough for the dispatch to return an error, and no action with it. -/
theorem dispatchAll_error (outcome : Outcome) :
    ∀ (order : List (String × Nat)) (actions : List (String × PluginAction)),
    (∃ x ∈ order, fails outcome x = true) → ∃ e, (dispatchAll outcome order actions).result = .error e
  | [], _, ⟨x, hx, _⟩ => by cases hx
  | y :: rest, actions, ⟨x, hx, hfails⟩ => by
    rw [dispatchAll]
    cases hy : outcome y with
    | error e => exact ⟨e, rfl⟩
    | ok action =>
      refine dispatchAll_error outcome rest _ ⟨x, ?_, hfails⟩
      rcases List.mem_cons.1 hx with rfl | hx
      · rw [fails_false_iff.2 ⟨action, hy⟩] at hfails
        cases hfails
      · exact hx

/-! ## Isolation -/

theorem FailsHarmlessly.isolated {outcome : Outcome} {order plugins : List (String × Nat)}
    (horder : order.Perm plugins) (h : FailsHarmlessly outcome order) :
    Isolated plugins outcome (dispatchAll outcome order []) := by
  have hall : Rounds.upTo (fails outcome) order = order := by
    rw [Rounds.upTo_eq_self_iff]
    rcases h with hnone | ⟨first, last, rfl, -, hfirst⟩
    · exact fun x hx => hnone x (List.dropLast_subset _ hx)
    · rw [List.dropLast_concat]
      exact fun x hx => fails_false_iff.2 ⟨none, hfirst x hx⟩
  refine ⟨?_, fun x hx action haction => ?_⟩
  · rw [dispatchAll_delivered, hall]
    exact horder
  have hx := horder.mem_iff.2 hx
  rcases h with hnone | ⟨first, last, rfl, hlast, hfirst⟩
  · refine ⟨_, dispatchAll_ok outcome order [] hnone, ?_⟩
    rw [List.nil_append]
    exact List.mem_filterMap.2 ⟨x, hx, by rw [emitted, haction]; rfl⟩
  · rcases List.mem_append.1 hx with hx | hx
    · rw [hfirst x hx] at haction
      cases haction
    · rw [← List.mem_singleton.1 hx, fails_false_iff.2 ⟨_, haction⟩] at hlast
      cases hlast

theorem Isolated.failsHarmlessly {outcome : Outcome} {order plugins : List (String × Nat)}
    (horder : order.Perm plugins) (h : Isolated plugins outcome (dispatchAll outcome order [])) :
    FailsHarmlessly outcome order := by
  have hall : ∀ x ∈ order.dropLast, fails outcome x = false := by
    have hdelivered := h.delivered
    rw [dispatchAll_delivered, Rounds.upTo_perm_iff horder] at hdelivered
    exact (Rounds.upTo_eq_self_iff order).1 hdelivered
  by_cases hfail : ∃ x ∈ order, fails outcome x = true
  · obtain ⟨e, herror⟩ := dispatchAll_error outcome order [] hfail
    obtain ⟨x, hx, hfails⟩ := hfail
    have hsplit := List.dropLast_append_getLast (List.ne_nil_of_mem hx)
    refine .inr ⟨order.dropLast, _, hsplit.symm, ?_, fun y hy => ?_⟩
    · -- the plugin that fails is the last one
      rw [← hsplit] at hx
      rcases List.mem_append.1 hx with hx | hx
      · rw [hall x hx] at hfails
        cases hfails
      · rwa [List.mem_singleton.1 hx] at hfails
    · -- an action of any other is lost with the error
      obtain ⟨action, haction⟩ := fails_false_iff.1 (hall y hy)
      cases action with
      | none => exact haction
      | some a =>
        obtain ⟨actions, hok, -⟩ := h.returned y (horder.mem_iff.1 (List.dropLast_subset _ hy)) a haction
        rw [herror] at hok
        cases hok
  · refine .inl fun x hx => ?_
    rw [← Bool.not_eq_true]
    exact fun hfails => hfail ⟨x, hx, hfails⟩

/-- In whatever order the registry is read, failures are isolated exactly if none happens, or the last
plugin fails and no action is lost with its error. -/
theorem dispatch_isolated_iff (g : Shared) (outcome : Outcome) {order : List (String × Nat)}
    (horder : order.Perm (registered g)) :
    Isolated (registered g) outcome (dispatchAll outcome order []) ↔ FailsHarmlessly outcome order :=
  ⟨Isolated.failsHarmlessly horder, FailsHarmlessly.isolated horder⟩

def twoPlugins : Shared := { plugins := AList.insert "a" 0 (AList.insert "b" 1 ∅) }

/-- The second of the two plugins fails. -/
def secondFails : Outcome := fun x => if x.1 = "b" then .error (.timeout 10) else .ok none

theorem dispatch_isolated_iff_secondFails :
    Isolated (registered twoPlugins) secondFails (dispatchAll secondFails [("a", 0), ("b", 1)] []) := by
  have horder : [("a", 0), ("b", 1)].Perm (registered twoPlugins) := by decide
  exact (dispatch_isolated_iff twoPlugins secondFails horder).2
    (.inr ⟨[("a", 0)], ("b", 1), rfl, by decide, by simp [secondFails]⟩)

/-- The same plugins in the other order: the plugin behind the failure gets no event. -/
theorem failure_stops_dispatch :
    [("b", 1), ("a", 0)].Perm (registered twoPlugins) ∧
      ¬ Isolated (registered twoPlugins) secondFails (dispatchAll secondFails [("b", 1), ("a", 0)] []) := by
  refine ⟨by decide, fun h => ?_⟩
  have hlen := h.delivered.length_eq
  cases hlen

/-! ## The steps of a dispatch -/

/-- A dispatch in progress: the plugins behind it have succeeded, and what it comes to from here is what
the loop comes to. -/
def Follows (outcome : Outcome) (order : List (String × Nat)) : Pc → Prop
  | .dispatching _ rest actions => ∃ done, order = done ++ rest ∧ (∀ x ∈ done, fails outcome x = false) ∧
      (dispatchAll outcome rest actions).result = (dispatchAll outcome order []).result
  | .dispatched r => r = (dispatchAll outcome order []).result
  | _ => False

/-- The hook that ends next answers as the outcome of its plugin says. -/
def Answers (outcome : Outcome) : Pc → Act → Prop
  | .dispatching _ (x :: _) _, .hook r => r = outcome x
  | _, _ => True

theorem Follows.act {outcome : Outcome} {order : List (String × Nat)} {g g' : Shared} {c d : Pc} {a : Act}
    (h : Follows outcome order c) (ha : Answers outcome c a) (hs : act g c a = some (g', d)) :
    Follows outcome order d := by
  unfold Manager.act at hs
  split at hs
  case h_5 event name plugin rest actions action =>
    cases hs
    obtain ⟨done, rfl, hdone, hresult⟩ := h
    have hx : outcome (name, plugin) = .ok action := ha.symm
    refine ⟨done ++ [(name, plugin)], by simp, ?_, ?_⟩
    · exact forall_append hdone (fails_false_iff.2 ⟨action, hx⟩)
    · rw [← hresult, dispatchAll, hx]
  case h_6 event x rest actions e =>
    cases hs
    obtain ⟨done, rfl, hdone, hresult⟩ := h
    have hx : outcome x = .error e := ha.symm
    show Except.error e = _
    rw [← hresult, dispatchAll, hx]
  case h_7 event actions =>
    cases hs
    obtain ⟨done, rfl, hdone, hresult⟩ := h
    exact hresult
  case h_8 => cases hs
  -- no other program point is one of a dispatch
  all_goals cases h

/-- In every run a dispatch, whatever other calls do meanwhile, ends with what the loop returns. -/
theorem dispatch_run {outcome : Outcome} {order : List (String × Nat)} {event : PluginEvent} {i : Nat}
    {es : List Event} {s s' : Sys} (hi : s.calls[i]? = some (.dispatching event order []))
    (hanswers : Run.Along step (fun s e => ∀ c a, e = .act i a → s.calls[i]? = some c → Answers outcome c a) s es)
    (hs : Run.exec step s es = some s') : ∃ c, s'.calls[i]? = some c ∧ Follows outcome order c := by
  have hstep (s : Sys) (e : Event) (s' : Sys) (h : ∃ c, s.calls[i]? = some c ∧ Follows outcome order c)
      (ha : ∀ c a, e = .act i a → s.calls[i]? = some c → Answers outcome c a) (hs : step s e = some s') :
      ∃ c, s'.calls[i]? = some c ∧ Follows outcome order c :=
    follow_step (fun c a g g' d he hc hfollows hact => hfollows.act (ha c a he hc) hact) hs h
  exact Run.exec_inv hstep es s s' ⟨_, hi, [], rfl, fun _ hx => (by cases hx), rfl⟩ hanswers hs

end NapCat.Plugin.Manager
