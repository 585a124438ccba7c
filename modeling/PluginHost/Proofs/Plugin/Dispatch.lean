import Mathlib.Data.List.Basic
import Mathlib.Tactic.SplitIfs
import PluginHost.Plugin.Registry

/-!
# Which plugin a name stands for

A name that is not reserved stands for the last plugin that bears it (`LastNamed`).

* Registering.  Each plugin that is registered takes its name over from those before
  (`resolve_register`); so what a name resolves to is the last one (`resolve_registerFrom`).
* The commands that count.  There is one for each name (`map_name_effective`), and those that can
  stand beside others are the ones whose names are free (`mem_additions_iff`).
* Dispatching.  The plugin that the name stands for is run, and no other (`dispatch_of_last`).
-/

namespace PluginHost

open Children Rpc

/-! ## The last one of a name -/

/-- At the place stands the last plugin that describes itself by the name. -/
def LastNamed (plugins : PluginSet) (name : String) (place : Nat) (plugin : LoadedPlugin) : Prop :=
  plugins[place]? = some plugin ∧ plugin.descriptor.name = name ∧
    ∀ later other, place < later → plugins[later]? = some other → other.descriptor.name ≠ name

/-- The name can be a command, and a plugin bears it. -/
def Registered (plugins : PluginSet) (name : String) : Prop :=
  name ∉ reservedNames ∧ ∃ p ∈ plugins, p.descriptor.name = name

theorem LastNamed.cons {plugins : PluginSet} {name : String} {place : Nat} {plugin : LoadedPlugin}
    (h : LastNamed plugins name place plugin) (first : LoadedPlugin) :
    LastNamed (first :: plugins) name (place + 1) plugin := by
  obtain ⟨hplace, hname, hlast⟩ := h
  refine ⟨hplace, hname, fun later other hlater hother => ?_⟩
  obtain ⟨later, rfl⟩ : ∃ n, later = n + 1 := ⟨later - 1, by omega⟩
  exact hlast later other (by omega) hother

theorem lastNamed_head {first : LoadedPlugin} {plugins : PluginSet}
    (hnone : ∀ p ∈ plugins, p.descriptor.name ≠ first.descriptor.name) :
    LastNamed (first :: plugins) first.descriptor.name 0 first := by
  refine ⟨rfl, rfl, fun later other hlater hother => ?_⟩
  obtain ⟨later, rfl⟩ : ∃ n, later = n + 1 := ⟨later - 1, by omega⟩
  exact hnone other (List.mem_of_getElem? hother)

/-! ## Registering -/

namespace Registry

theorem resolve_name {r : Registry} {name : String} {c : PluginCommand}
    (h : r.resolve name = some c) : c.name = name := by
  simpa using List.find?_some h

/-- A plugin takes over its name, unless it is reserved. -/
theorem resolve_register (r : Registry) (place : Nat) (d : Descriptor) {name : String}
    (hname : name ∉ reservedNames) :
    (r.register place d).resolve name =
      if d.name = name then some ⟨name, d.about, place⟩ else r.resolve name := by
  unfold register
  split_ifs with hreserved hsame hsame
  · rw [← hsame] at hname
    exact absurd (by simpa using hreserved) hname
  · rfl
  · simp [resolve, hsame]
  · simp [resolve, hsame]

theorem resolve_register_reserved (r : Registry) (place : Nat) (d : Descriptor) {name : String}
    (hname : name ∈ reservedNames) : (r.register place d).resolve name = r.resolve name := by
  unfold register
  split_ifs with hreserved
  · rfl
  · have hother : d.name ≠ name := by
      rintro rfl
      exact hreserved (by simpa using hname)
    simp [resolve, hother]

theorem registerFrom_cons (r : Registry) (place : Nat) (d : Descriptor) (ds : List Descriptor) :
    (r.registerFrom place (d :: ds)).1 = ((r.register place d).registerFrom (place + 1) ds).1 :=
  rfl

/-- After registering, a name stands for the last plugin that bears it, or for what it has stood for
if there is none. -/
theorem resolve_registerFrom (plugins : PluginSet) {name : String} (hname : name ∉ reservedNames)
    (r : Registry) (place : Nat) :
    (∃ k p, LastNamed plugins name k p ∧
        (r.registerFrom place plugins.descriptors).1.resolve name =
          some ⟨name, p.descriptor.about, place + k⟩) ∨
      (∀ p ∈ plugins, p.descriptor.name ≠ name) ∧
        (r.registerFrom place plugins.descriptors).1.resolve name = r.resolve name := by
  induction plugins generalizing r place with
  | nil => exact .inr ⟨fun _ h => absurd h List.not_mem_nil, rfl⟩
  | cons first plugins ih =>
      have hcons : PluginSet.descriptors (first :: plugins) =
          first.descriptor :: PluginSet.descriptors plugins := rfl
      rw [hcons, registerFrom_cons]
      rcases ih (r.register place first.descriptor) (place + 1) with
        ⟨k, p, hlast, hresolve⟩ | ⟨hnone, hresolve⟩
      · refine .inl ⟨k + 1, p, hlast.cons first, ?_⟩
        rw [hresolve, show place + 1 + k = place + (k + 1) by omega]
      · rw [hresolve, resolve_register r place first.descriptor hname]
        split_ifs with hfirst
        · subst hfirst
          exact .inl ⟨0, first, lastNamed_head hnone, rfl⟩
        · exact .inr ⟨List.forall_mem_cons.2 ⟨hfirst, hnone⟩, rfl⟩

theorem resolve_registerFrom_reserved (ds : List Descriptor) {name : String}
    (hname : name ∈ reservedNames) (r : Registry) (place : Nat) :
    (r.registerFrom place ds).1.resolve name = r.resolve name := by
  induction ds generalizing r place with
  | nil => rfl
  | cons d ds ih => rw [registerFrom_cons, ih, resolve_register_reserved r place d hname]

/-- The registry of a set of plugins. -/
abbrev ofPlugins (plugins : PluginSet) : Registry := (ofDescriptors plugins.descriptors).1

/-- A registered name stands for the last plugin that bears it. -/
theorem resolve_of_registered {plugins : PluginSet} {name : String}
    (h : Registered plugins name) :
    ∃ place p, LastNamed plugins name place p ∧
      (ofPlugins plugins).resolve name = some ⟨name, p.descriptor.about, place⟩ := by
  obtain ⟨hname, p, hp, hbears⟩ := h
  rcases resolve_registerFrom plugins hname {} 0 with ⟨k, p, hlast, hresolve⟩ | ⟨hnone, -⟩
  · rw [Nat.zero_add] at hresolve
    exact ⟨k, p, hlast, hresolve⟩
  · exact absurd hbears (hnone p hp)

/-- No other name stands for anything. -/
theorem resolve_of_not_registered {plugins : PluginSet} {name : String}
    (h : ¬Registered plugins name) : (ofPlugins plugins).resolve name = none := by
  by_cases hname : name ∈ reservedNames
  · exact resolve_registerFrom_reserved plugins.descriptors hname {} 0
  · rcases resolve_registerFrom plugins hname {} 0 with ⟨k, p, hlast, -⟩ | ⟨-, hresolve⟩
    · exact absurd ⟨hname, p, List.mem_of_getElem? hlast.1, hlast.2.1⟩ h
    · exact hresolve

theorem isSome_resolve_iff {r : Registry} {name : String} :
    (r.resolve name).isSome = true ↔ name ∈ r.commands.map (·.name) := by
  simp [resolve, List.find?_isSome]

/-! ## The commands that count -/

theorem nodup_eraseDups {α : Type} [BEq α] [LawfulBEq α] (as : List α) : as.eraseDups.Nodup := by
  induction hlength : as.length using Nat.strongRecOn generalizing as with
  | _ n ih =>
      cases as with
      | nil => exact List.nodup_nil
      | cons a as =>
          rw [List.eraseDups_cons, List.nodup_cons]
          refine ⟨fun h => ?_, ih _ ?_ _ rfl⟩
          · simp [List.mem_eraseDups] at h
          · subst hlength
            exact Nat.lt_succ_of_le (List.length_filter_le _ _)

/-- The commands that count are one for each name, in the order of the names. -/
theorem map_name_effective (r : Registry) :
    r.effective.map (·.name) = (r.commands.map (·.name)).eraseDups := by
  have hresolve : ∀ name ∈ (r.commands.map (·.name)).eraseDups,
      (r.resolve name).map (·.name) = some name := by
    intro name hname
    obtain ⟨c, hc⟩ := Option.isSome_iff_exists.1
      (isSome_resolve_iff.2 (List.mem_eraseDups.1 hname))
    rw [hc, Option.map_some, resolve_name hc]
  rw [effective, List.map_filterMap]
  exact (List.filterMap_congr hresolve).trans List.filterMap_some

theorem mem_additions_iff {r : Registry} {taken : List String} {c : PluginCommand} :
    c ∈ r.additions taken ↔ r.resolve c.name = some c ∧ c.name ∉ taken := by
  rw [additions, List.mem_filter, effective, List.mem_filterMap]
  constructor
  · rintro ⟨⟨name, -, hresolve⟩, htaken⟩
    rw [resolve_name hresolve]
    exact ⟨hresolve, by simpa [resolve_name hresolve] using htaken⟩
  · rintro ⟨hresolve, htaken⟩
    refine ⟨⟨c.name, ?_, hresolve⟩, by simpa using htaken⟩
    rw [List.mem_eraseDups, ← isSome_resolve_iff, hresolve]
    rfl

theorem nodup_names_additions (r : Registry) (taken : List String) :
    ((r.additions taken).map (·.name)).Nodup := by
  have hall : (r.effective.map (·.name)).Nodup := by
    rw [map_name_effective]
    exact nodup_eraseDups _
  exact hall.sublist (List.filter_sublist.map _)

/-! ## Dispatching -/

/-- A registered name runs its plugin, and none but it. -/
theorem dispatch_of_last {ε : Type} {plugins : PluginSet} {name : String} {place : Nat}
    {p : LoadedPlugin} (hlast : LastNamed plugins name place p)
    (hresolve : (ofPlugins plugins).resolve name = some ⟨name, p.descriptor.about, place⟩) :
    ((ofPlugins plugins).dispatch name plugins : Step ε _) = (do
      let (result, p) ← p.run
      pure (result.mapError InvocationError.ofRpc, plugins.set place p)) := by
  unfold dispatch
  rw [hresolve]
  dsimp only
  unfold PluginSet.runAt
  rw [hlast.1, bind_assoc]
  congr 1
  funext ran
  obtain ⟨result, p⟩ := ran
  rw [pure_bind]
  cases result <;> rfl

theorem dispatch_unknown {ε : Type} {plugins : PluginSet} {name : String}
    (hresolve : (ofPlugins plugins).resolve name = none) :
    ((ofPlugins plugins).dispatch name plugins : Step ε _) =
      pure (.error (.unknown name), plugins) := by
  unfold dispatch
  rw [hresolve]

end Registry

end PluginHost
