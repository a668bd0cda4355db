/-
What a load or an unload that fails leaves of the registry, for a call alone. A load writes after its
hook; an unload removes the plugin first and asks its hook then, so the hook's failure comes too late.
-/
import NapCat.Plugin.Registry

namespace NapCat.Plugin.Manager

open Threads (alone)

/-- The registry, and the backends its plugins are known by, while no call is in progress. -/
structure Registry where
  plugins : AList (fun _ : String => Nat) := ∅
  backends : List PluginBackend := []

def Registry.idle (r : Registry) : Shared := { plugins := r.plugins, backends := r.backends }

/-- A call that writes to the registry. -/
inductive RegistryCall
  | load (definition : PluginDefinition) (host : Host)
  | unload (name : String)

def RegistryCall.op : RegistryCall → Op
  | .load definition host => .load definition host
  | .unload name => .unload name

/-- A call alone, up to some point of it. -/
def callAlone (r : Registry) (c : RegistryCall) (as : List Act) : Option (Shared × Pc) :=
  (begin r.idle c.op).bind fun s => Run.exec (alone program) s as

/-- A call alone is a run of the manager in which the other calls stay where they are. -/
theorem callAlone_run {r : Registry} {c : RegistryCall} {as : List Act} {g : Shared} {p : Pc} (calls : List Pc)
    (h : callAlone r c as = some (g, p)) :
    Run.exec step ⟨r.idle, calls⟩ (.start c.op :: as.map (.act calls.length)) = some ⟨g, calls ++ [p]⟩ := by
  obtain ⟨s, hs, h⟩ := Option.bind_eq_some_iff.1 h
  have hb : step ⟨r.idle, calls⟩ (.start c.op) = some ⟨s.1, calls ++ [s.2]⟩ := by
    simp only [step, Threads.step, program, hs, Option.map_some]
  rw [Run.exec_cons, hb]
  exact Threads.exec_alone calls as s _ h

/-- The error a registry call has returned. -/
def Pc.error : Pc → Option PluginError
  | .failed e => some e
  | .unloaded _ _ (.error e) => some e
  | _ => none

/-- The same names stand for the same plugins. -/
def Registry.Unchanged (r : Registry) (g : Shared) : Prop := g.plugins = r.plugins ∧ r.backends <+: g.backends

/-- A call whose hook, where it gets that far, ends so, leaves the registry when it fails. -/
def FailsCleanly (r : Registry) (c : RegistryCall) (hook : Except PluginError (Option PluginAction)) : Prop :=
  ∀ as g p e, (∀ a ∈ as, a = .go ∨ a = .hook hook) → callAlone r c as = some (g, p) → p.error = some e → r.Unchanged g

/-! ## Load -/

/-- Up to its write a load leaves the registry. -/
def LoadAt (r : Registry) (s : Shared × Pc) : Prop :=
  match s.2 with
  | .loading _ _ | .inserting _ _ | .failed _ => r.Unchanged s.1
  | .loaded _ _ => True
  | _ => False

theorem loadAt_begin {r : Registry} {definition : PluginDefinition} {host : Host} {s : Shared × Pc}
    (h : beginLoad r.idle definition host = s) : LoadAt r s := by
  have hb := beginLoad_cases r.idle definition host
  rw [h] at hb
  obtain ⟨e, rfl⟩ | ⟨backend, -, -, -, -, rfl⟩ := hb
  · exact ⟨rfl, List.prefix_rfl⟩
  · exact ⟨rfl, List.prefix_append ..⟩

theorem LoadAt.step {r : Registry} {s s' : Shared × Pc} {a : Act} (h : LoadAt r s) (hs : alone program s a = some s') :
    LoadAt r s' := by
  obtain ⟨g, p⟩ := s
  have hs : act g p a = some s' := hs
  cases p with
  | loading name plugin =>
    cases a with
    | hook res => cases res <;> cases hs <;> exact h
    | go => cases hs
  | inserting name plugin =>
    cases a with
    | hook res => cases hs
    | go =>
      simp only [act] at hs
      split_ifs at hs
      cases hs
      exact trivial
  | loaded name plugin => cases hs
  | failed e => cases hs
  | _ => exact h.elim

theorem LoadAt.run {r : Registry} {s s' : Shared × Pc} {as : List Act} (h : LoadAt r s)
    (hs : Run.exec (alone program) s as = some s') : LoadAt r s' :=
  Run.exec_inv_always (fun _ _ _ => LoadAt.step) as s s' h hs

theorem callAlone_load (r : Registry) (definition : PluginDefinition) (host : Host) (as : List Act) :
    callAlone r (.load definition host) as = Run.exec (alone program) (beginLoad r.idle definition host) as := by
  rw [callAlone, RegistryCall.op, begin, Option.bind_some]

theorem load_failsCleanly (r : Registry) (definition : PluginDefinition) (host : Host)
    (hook : Except PluginError (Option PluginAction)) : FailsCleanly r (.load definition host) hook := by
  intro as g p e _ hrun he
  rw [callAlone_load] at hrun
  generalize hs : beginLoad r.idle definition host = s at hrun
  have h : LoadAt r (g, p) := (loadAt_begin hs).run hrun
  cases p with
  | failed e' => exact h
  | loading | inserting | loaded => cases he
  | _ => exact h.elim

/-! ## Unload -/

theorem remove_absent {r : Registry} {name : String} (h : name ∉ r.plugins) :
    remove r.idle name = (r.idle, .failed (.notFound name)) := by
  rw [remove, show r.idle.plugins.lookup name = none from AList.lookup_eq_none.2 h]

theorem remove_present {r : Registry} {name : String} {plugin : Nat} (h : r.plugins.lookup name = some plugin) :
    remove r.idle name = ({ r.idle with plugins := r.plugins.erase name }, .unloading name plugin) := by
  rw [remove, show r.idle.plugins.lookup name = some plugin from h]
  rfl

theorem callAlone_unload (r : Registry) (name : String) (as : List Act) :
    callAlone r (.unload name) as = Run.exec (alone program) (remove r.idle name) as := by
  have hb : begin r.idle (.unload name) = some (remove r.idle name) := by
    rw [begin]
    exact if_pos rfl
  rw [callAlone, RegistryCall.op, hb, Option.bind_some]

/-- A hook that fails leaves the unload without its plugin. -/
theorem unload_removes {r : Registry} {name : String} {plugin : Nat} (h : r.plugins.lookup name = some plugin)
    (e : PluginError) : callAlone r (.unload name) [.hook (.error e)] =
      some ({ r.idle with plugins := r.plugins.erase name }, .unloaded name plugin (.error e)) := by
  rw [callAlone_unload, remove_present h]
  rfl

theorem alone_failed {g : Shared} {e : PluginError} {as : List Act} {s : Shared × Pc}
    (h : Run.exec (alone program) (g, .failed e) as = some s) : s = (g, .failed e) := by
  cases as with
  | nil => exact (Option.some.inj h).symm
  | cons a as =>
    obtain ⟨m, hm, -⟩ := Option.bind_eq_some_iff.1 h
    cases hm

/-- An unload of a plugin whose hook succeeds does not fail. -/
theorem unload_succeeds {g g' : Shared} {name : String} {plugin : Nat} {action : Option PluginAction} {as : List Act}
    {p : Pc} (has : ∀ a ∈ as, a = .go ∨ a = .hook (.ok action))
    (h : Run.exec (alone program) (g, .unloading name plugin) as = some (g', p)) : p.error = none := by
  rcases as with _ | ⟨a, _ | ⟨b, as⟩⟩
  · cases h; rfl
  · rcases has a List.mem_cons_self with rfl | rfl <;> cases h
    rfl
  · rcases has a List.mem_cons_self with rfl | rfl <;> cases h

/-- A call fails cleanly unless it is the unload of a registered plugin whose hook fails. -/
theorem failsCleanly_iff (r : Registry) (c : RegistryCall) (hook : Except PluginError (Option PluginAction)) :
    FailsCleanly r c hook ↔ ¬ ∃ name e, c = .unload name ∧ name ∈ r.plugins ∧ hook = .error e := by
  constructor
  · rintro h ⟨name, e, rfl, hmem, rfl⟩
    obtain ⟨plugin, hp⟩ := Option.isSome_iff_exists.1 (AList.lookup_isSome.2 hmem)
    have hsame : r.plugins.erase name = r.plugins := (h _ _ _ e (by simp) (unload_removes hp e) rfl).1
    rw [← hsame] at hmem
    exact AList.mem_erase.1 hmem |>.1 rfl
  · intro h
    cases c with
    | load definition host => exact load_failsCleanly r definition host hook
    | unload name =>
      intro as g p e has hrun he
      rw [callAlone_unload] at hrun
      by_cases hmem : name ∈ r.plugins
      · obtain ⟨plugin, hp⟩ := Option.isSome_iff_exists.1 (AList.lookup_isSome.2 hmem)
        rw [remove_present hp] at hrun
        cases hook with
        | ok action =>
          rw [unload_succeeds has hrun] at he
          cases he
        | error e' => exact absurd ⟨name, e', rfl, hmem, rfl⟩ h
      · rw [remove_absent hmem] at hrun
        cases alone_failed hrun
        exact ⟨rfl, List.prefix_rfl⟩

/-- A registry with one plugin. -/
def oneLoaded : Registry :=
  ⟨(∅ : AList fun _ : String => Nat).insert "dup" 0, [.rust sampleDefinition.metadata "/bin/sh" [] 200]⟩

/-- The hook of an unload times out: the call fails, and the plugin is gone, so another unload does not find it. -/
theorem failed_unload_removes : ∃ g, callAlone oneLoaded (.unload "dup") [.hook (.error (.timeout 200))] =
      some (g, .unloaded "dup" 0 (.error (.timeout 200))) ∧
    "dup" ∈ oneLoaded.plugins ∧ "dup" ∉ g.plugins ∧ begin g (.unload "dup") = some (g, .failed (.notFound "dup")) ∧
    ¬ FailsCleanly oneLoaded (.unload "dup") (.error (.timeout 200)) := by
  have hp : oneLoaded.plugins.lookup "dup" = some 0 := rfl
  have hmem : "dup" ∈ oneLoaded.plugins := AList.lookup_isSome.1 (by rw [hp]; rfl)
  have hgone : "dup" ∉ oneLoaded.plugins.erase "dup" := fun h => (AList.mem_erase.1 h).1 rfl
  have hrun := unload_removes hp (.timeout 200)
  have hagain : remove (Registry.idle ⟨oneLoaded.plugins.erase "dup", oneLoaded.backends⟩) "dup" =
      (Registry.idle ⟨oneLoaded.plugins.erase "dup", oneLoaded.backends⟩, .failed (.notFound "dup")) :=
    remove_absent hgone
  refine ⟨_, hrun, hmem, hgone, congrArg some hagain, fun h => ?_⟩
  have hsame : oneLoaded.plugins.erase "dup" = oneLoaded.plugins := (h _ _ _ _ (by simp) hrun rfl).1
  rw [← hsame] at hmem
  exact hgone hmem

end NapCat.Plugin.Manager
