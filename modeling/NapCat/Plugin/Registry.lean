/-
No orphaned plugin: as long as no load writes over a registered name, every plugin whose load has
returned stands in the registry until an unload removes it and runs its hook.
-/
import NapCat.Plugin.Manager

namespace NapCat.Plugin.Manager

open Threads

/-- The plugin a load has built. -/
def Pc.built : Pc → Option Nat
  | .loading _ p | .inserting _ p | .loaded _ p => some p
  | _ => none

/-- The plugin an unload has removed: its hook runs, or has run. -/
def Pc.removed : Pc → Option Nat
  | .unloading _ p | .unloaded _ p _ => some p
  | _ => none

/-- A load writes to the registry only while its name is not registered. -/
def Orderly (s : Sys) : Event → Prop
  | .act i .go =>
    match s.calls[i]? with
    | some (.inserting name _) => name ∉ s.shared.plugins
    | _ => True
  | _ => True

instance (s : Sys) (e : Event) : Decidable (Orderly s e) := by
  unfold Orderly
  split
  · split <;> infer_instance
  · infer_instance

/-- An unload has removed the plugin. -/
def Removed (s : Sys) (plugin : Nat) : Prop := ∃ c ∈ s.calls, c.removed = some plugin

/-- What was loaded is kept: a plugin whose load has returned is registered or has been removed by an
unload, and of two loads of one name that have returned the plugin of one has been removed. -/
structure Kept (s : Sys) : Prop where
  registered : ∀ name p, .loaded name p ∈ s.calls → s.shared.plugins.lookup name = some p ∨ Removed s p
  unique : ∀ (i j : Nat) (name : String) (p q : Nat), s.calls[i]? = some (.loaded name p) →
    s.calls[j]? = some (.loaded name q) → i ≠ j → Removed s p ∨ Removed s q

structure Inv (s : Sys) : Prop where
  fresh : ∀ c ∈ s.calls, ∀ p, c.built = some p → p < s.shared.backends.length
  one : ∀ p, AtMostOne (fun c : Pc => c.built = some p) s.calls
  registered : ∀ name p, .loaded name p ∈ s.calls → s.shared.plugins.lookup name = some p ∨ Removed s p

theorem Inv.kept {s : Sys} (h : Inv s) : Kept s where
  registered := h.registered
  unique i j name p q hi hj hne := by
    rcases h.registered name p (mem_of_get hi) with hp | hp
    · rcases h.registered name q (mem_of_get hj) with hq | hq
      · -- both are the plugin registered under the name, and one load has built it
        obtain rfl : p = q := Option.some.inj (hp.symm.trans hq)
        exact absurd (h.one p i j _ _ hi hj rfl rfl) hne
      · exact .inr hq
    · exact .inl hp

/-! ## New calls -/

/-- A new call that has built nothing and leaves the registry alone. -/
theorem Inv.append {s : Sys} {g : Shared} {c : Pc} (h : Inv s) (hc : c.built = none)
    (hpl : g.plugins = s.shared.plugins) (hb : g.backends = s.shared.backends) : Inv ⟨g, s.calls ++ [c]⟩ where
  fresh := by
    rw [hb]
    exact forall_append h.fresh fun p hp => by rw [hc] at hp; cases hp
  one p := (h.one p).append fun hp => by rw [hc] at hp; cases hp
  registered name p hm := by
    rcases List.mem_append.1 hm with hm | hm
    · show g.plugins.lookup name = some p ∨ _
      rw [hpl]
      exact (h.registered name p hm).imp_right exists_append
    · rw [← List.mem_singleton.1 hm] at hc
      cases hc

/-- A load builds a plugin that no call has built before. -/
theorem Inv.build {s : Sys} (h : Inv s) (name : String) (backend : PluginBackend) :
    Inv ⟨{ s.shared with backends := s.shared.backends ++ [backend] },
      s.calls ++ [.loading name s.shared.backends.length]⟩ where
  fresh := by
    have hlen : (s.shared.backends ++ [backend]).length = s.shared.backends.length + 1 := List.length_append
    refine forall_append (fun c hc p hp => ?_) fun p hp => ?_
    · exact hlen ▸ Nat.lt_succ_of_lt (h.fresh c hc p hp)
    · cases hp
      exact hlen ▸ Nat.lt_succ_self _
  one p := by
    refine (h.one p).append fun hp c hc hcp => ?_
    cases hp
    exact Nat.lt_irrefl _ (h.fresh c hc _ hcp)
  registered name' p hm := by
    rcases List.mem_append.1 hm with hm | hm
    · exact (h.registered name' p hm).imp_right exists_append
    · cases List.mem_singleton.1 hm

theorem Inv.beginLoad {s : Sys} (h : Inv s) (definition : PluginDefinition) (host : Host) :
    Inv ⟨(beginLoad s.shared definition host).1, s.calls ++ [(beginLoad s.shared definition host).2]⟩ := by
  obtain ⟨e, hb⟩ | ⟨backend, -, -, -, -, hb⟩ := beginLoad_cases s.shared definition host <;> rw [hb]
  · exact h.append rfl rfl rfl
  · exact h.build _ backend

/-- An unload takes the plugin out of the registry and has removed it from then on. -/
theorem Inv.remove {s : Sys} (h : Inv s) (name : String) :
    Inv ⟨(remove s.shared name).1, s.calls ++ [(remove s.shared name).2]⟩ := by
  unfold Manager.remove
  split
  · rename_i plugin hlook
    refine ⟨forall_append h.fresh fun p hp => (by cases hp), fun p => (h.one p).append fun hp => (by cases hp), ?_⟩
    intro name' p hm
    have hm : .loaded name' p ∈ s.calls := by
      rcases List.mem_append.1 hm with hm | hm
      · exact hm
      · cases List.mem_singleton.1 hm
    rcases h.registered name' p hm with hreg | hrem
    · by_cases hname : name' = name
      · subst hname
        obtain rfl : plugin = p := Option.some.inj (hlook.symm.trans hreg)
        exact .inr ⟨_, List.mem_append_right _ (List.mem_singleton.2 rfl), rfl⟩
      · left
        show (s.shared.plugins.erase name).lookup name' = some p
        rw [AList.lookup_erase_ne hname]
        exact hreg
    · exact .inr (exists_append hrem)
  · exact h.append rfl rfl rfl

/-! ## Later steps -/

/-- A call goes on without touching the registry: it keeps what it has built and removed, and no load
returns. -/
theorem Inv.set {s : Sys} {i : Nat} {c d : Pc} {g : Shared} (h : Inv s) (hi : s.calls[i]? = some c)
    (hpl : g.plugins = s.shared.plugins) (hb : g.backends = s.shared.backends)
    (hbuilt : d.built = none ∨ d.built = c.built) (hrem : c.removed = none ∨ c.removed = d.removed)
    (hd : ∀ name p, d ≠ .loaded name p) : Inv ⟨g, s.calls.set i d⟩ := by
  have hbuilt : ∀ p, d.built = some p → c.built = some p := by
    intro p hp
    rcases hbuilt with hn | he
    · rw [hn] at hp; cases hp
    · exact he ▸ hp
  have hkeep : ∀ p, Removed s p → ∃ x ∈ s.calls.set i d, x.removed = some p := by
    intro p
    refine exists_set_of_imp hi fun hp => ?_
    rcases hrem with hn | he
    · rw [hn] at hp; cases hp
    · exact he ▸ hp
  refine ⟨?_, fun p => (h.one p).set hi (hbuilt p), fun name p hm => ?_⟩
  · rw [hb]
    exact forall_set h.fresh fun p hp => h.fresh c (mem_of_get hi) p (hbuilt p hp)
  · rcases List.mem_or_eq_of_mem_set hm with hm | hm
    · show g.plugins.lookup name = some p ∨ _
      rw [hpl]
      exact (h.registered name p hm).imp_right (hkeep p)
    · exact absurd hm.symm (hd name p)

/-- A load writes under a name that is not registered: a plugin loaded under it before is gone. -/
theorem Inv.insert {s : Sys} {i : Nat} {name : String} {plugin : Nat} (h : Inv s)
    (hi : s.calls[i]? = some (.inserting name plugin)) (hname : name ∉ s.shared.plugins) :
    Inv ⟨(insert s.shared name plugin).1, s.calls.set i (insert s.shared name plugin).2⟩ := by
  refine ⟨forall_set h.fresh fun p hp => h.fresh _ (mem_of_get hi) p hp, fun p => (h.one p).set hi id, ?_⟩
  intro name' p hm
  show (s.shared.plugins.insert name plugin).lookup name' = some p ∨ _
  rcases List.mem_or_eq_of_mem_set hm with hm | hm
  · have hkeep : Removed s p → ∃ x ∈ s.calls.set i (Manager.insert s.shared name plugin).2, x.removed = some p :=
      exists_set_of_imp hi fun hp => by cases hp
    rcases h.registered name' p hm with hreg | hrem
    · have hne : name' ≠ name := by
        rintro rfl
        rw [AList.lookup_eq_none.2 hname] at hreg
        cases hreg
      rw [AList.lookup_insert_ne hne]
      exact .inl hreg
    · exact .inr (hkeep hrem)
  · cases hm
    exact .inl (AList.lookup_insert _)

theorem Inv.act {s : Sys} {i : Nat} {a : Act} {c d : Pc} {g : Shared} (h : Inv s) (hc : Orderly s (.act i a))
    (hi : s.calls[i]? = some c) (hs : act s.shared c a = some (g, d)) : Inv ⟨g, s.calls.set i d⟩ := by
  unfold Manager.act at hs
  split at hs
  · cases hs
    exact h.set hi rfl rfl (.inr rfl) (.inl rfl) fun _ _ he => by cases he
  · cases hs
    exact h.set hi rfl rfl (.inl rfl) (.inl rfl) fun _ _ he => by cases he
  · split at hs
    · cases hs
      simp only [Orderly, hi] at hc
      exact h.insert hi hc
    · cases hs
  · cases hs
    exact h.set hi rfl rfl (.inl rfl) (.inr rfl) fun _ _ he => by cases he
  all_goals
    cases hs
  · exact h.set hi rfl rfl (.inl rfl) (.inl rfl) fun _ _ he => by cases he
  · exact h.set hi rfl rfl (.inl rfl) (.inl rfl) fun _ _ he => by cases he
  · exact h.set hi rfl rfl (.inl rfl) (.inl rfl) fun _ _ he => by cases he

theorem step_inv (s : Sys) (e : Event) (s' : Sys) (h : Inv s) (hc : Orderly s e) (hs : step s e = some s') :
    Inv s' := by
  cases e with
  | start op =>
    obtain ⟨g, c, hb, rfl⟩ := step_start hs
    cases op with
    | load definition host =>
      obtain ⟨rfl, rfl⟩ := Prod.ext_iff.1 (Option.some.inj hb)
      exact h.beginLoad definition host
    | unload name =>
      obtain ⟨-, hb⟩ := Option.ite_none_right_eq_some.1 hb
      obtain ⟨rfl, rfl⟩ := Prod.ext_iff.1 (Option.some.inj hb)
      exact h.remove name
    | dispatch event order =>
      obtain ⟨-, hb⟩ := Option.ite_none_right_eq_some.1 hb
      cases hb
      exact h.append rfl rfl rfl
  | act i a =>
    obtain ⟨c, g, d, hi, ha, rfl⟩ := step_act hs
    exact h.act hc hi ha
  | env e => cases e

theorem Inv.init : Inv init :=
  ⟨fun c hc => (by cases hc), fun p i j c d hi => (by cases hi), fun name p hm => (by cases hm)⟩

/-- In every orderly run a plugin whose load has returned stays registered until an unload removes it,
and of two loads of one name that have returned the plugin of one has been removed. -/
theorem plugins_kept {es : List Event} {s : Sys} (hc : Run.Along step Orderly Manager.init es)
    (hs : Run.exec step Manager.init es = some s) : Kept s :=
  (Run.exec_inv step_inv es _ _ Inv.init hc hs).kept

/-- A host on which every path is an executable file. -/
def sampleHost : Host where
  canonicalize path := .ok path
  metadata _ := .ok ⟨true, 0o755⟩
  parseUrl text := .ok ⟨"http", text⟩

def sampleDefinition : PluginDefinition :=
  ⟨⟨"dup", "0.1.0", none, none⟩, .rust "/bin/sh" ["-c", "cat >/dev/null"] 200, true⟩

/-- A plugin is loaded, unloaded and loaded again. -/
def reload : List Event :=
  [.start (.load sampleDefinition sampleHost), .act 0 (.hook (.ok none)), .act 0 .go, .start (.unload "dup"),
    .act 1 (.hook (.ok none)), .start (.load sampleDefinition sampleHost), .act 2 (.hook (.ok none)), .act 2 .go]

theorem plugins_kept_reload : ∃ s, Run.exec step Manager.init reload = some s ∧ Kept s := by
  have h : (Run.exec step Manager.init reload).isSome := by decide +kernel
  obtain ⟨s, hs⟩ := Option.isSome_iff_exists.1 h
  exact ⟨s, hs, plugins_kept (by decide +kernel) hs⟩

/-- Two loads of one name, the second of which begins while the hook of the first runs. -/
def overlap : List Event :=
  [.start (.load sampleDefinition sampleHost), .start (.load sampleDefinition sampleHost), .act 0 (.hook (.ok none)),
    .act 1 (.hook (.ok none)), .act 0 .go, .act 1 .go]

/-- Both return, and the second plugin has replaced the first without an unload. -/
theorem overlapping_loads_replace : ∃ s, Run.exec step Manager.init overlap = some s ∧
    .loaded "dup" 0 ∈ s.calls ∧ .loaded "dup" 1 ∈ s.calls ∧ ¬ Kept s := by
  have hk : (Run.exec step Manager.init overlap).map (fun s => (s.calls, s.shared.plugins.lookup "dup"))
      = some ([.loaded "dup" 0, .loaded "dup" 1], some 1) := by rfl
  obtain ⟨s, hs, hk⟩ := Option.map_eq_some_iff.1 hk
  obtain ⟨hcalls, hlook⟩ := Prod.mk.injEq .. ▸ hk
  refine ⟨s, hs, ?_, ?_, fun h => ?_⟩
  · rw [hcalls]; simp
  · rw [hcalls]; simp
  · rcases h.registered "dup" 0 (by rw [hcalls]; simp) with hreg | ⟨c, hc, hrem⟩
    · rw [hlook] at hreg; cases hreg
    · rw [hcalls] at hc
      simp only [List.mem_cons, List.not_mem_nil, or_false] at hc
      rcases hc with rfl | rfl <;> cases hrem

end NapCat.Plugin.Manager
