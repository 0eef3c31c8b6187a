import NamedSlots.Proofs.LayoutAnswer
import NamedSlots.System.Object

/-!
# Problem states as systems

A problem state leaves resolution to its container. Over a layout or a versioned layout it
answers from the layouts of that container, and two references to one state are one system.
-/

namespace NamedSlots

namespace Objects

lemma world_handle {objects : Objects} {h : Handle} {object : SystemObject}
    (hfind : Assoc.find? h.identity objects = some object) :
    objects.world (.handle h) = objects.interfaceAt h.identity := by
  have hcontains : Assoc.contains objects h.identity = true := by
    unfold Assoc.contains
    rw [hfind]
    rfl
  unfold world
  simp only [hcontains, if_true]

lemma interfaceAt_of_find? {objects : Objects} {k : Nat} {object : SystemObject}
    (hfind : Assoc.find? k objects = some object) :
    ∃ world, objects.interfaceAt k = object.toInterface world k := by
  induction objects with
  | nil => cases hfind
  | cons entry older ih =>
    obtain ⟨n, newest⟩ := entry
    rw [Assoc.find?] at hfind
    by_cases hn : n = k
    · subst hn
      rw [if_pos (beq_self_eq_true n)] at hfind
      cases hfind
      rw [interfaceAt, if_pos rfl]
      exact ⟨_, rfl⟩
    · rw [if_neg (by simp only [beq_iff_eq, hn, not_false_eq_true])] at hfind
      rw [interfaceAt, if_neg hn]
      exact ih hfind

/-- A value refers to a problem state whose container is a layout or a versioned layout. -/
def HoldsState (objects : Objects) (v : Value) : Prop :=
  ∃ h k state, v = .handle h ∧ Assoc.find? h.identity objects = some (.state state) ∧
    state.system = .handle k ∧
      ((∃ l, Assoc.find? k.identity objects = some (.layout l)) ∨
        ∃ l, Assoc.find? k.identity objects = some (.versioned l))

variable {objects : Objects} {v w : Value}

/-- References to one object refer to one system. -/
lemma HoldsState.system_eq (hv : objects.HoldsState v) (hw : objects.HoldsState w)
    (h : v.isObject w = true) :
    System.of objects.world v = System.of objects.world w := by
  obtain ⟨a, k, state, rfl, ha, -⟩ := hv
  obtain ⟨b, k', state', rfl, hb, -⟩ := hw
  have hidentity : a.identity = b.identity := beq_iff_eq.1 h
  have hworld : objects.world (.handle a) = objects.world (.handle b) := by
    rw [world_handle ha, world_handle hb, hidentity]
  obtain ⟨world, hinterface⟩ := interfaceAt_of_find? hb
  have hcontainer : (objects.world (.handle b)).container = .method state'.system := by
    rw [world_handle hb, hinterface]
    rfl
  unfold System.of System.containerValue
  rw [hworld, hcontainer]
  rfl

lemma HoldsState.answeredBy (hv : objects.HoldsState v) :
    ∃ layoutAt, (System.of objects.world v).AnsweredBy layoutAt := by
  obtain ⟨h, k, state, rfl, hstate, hsystem, hcontainer⟩ := hv
  obtain ⟨world, hinterface⟩ := interfaceAt_of_find? hstate
  have hown : objects.world (.handle h) = state.toInterface world h.identity := by
    rw [world_handle hstate, hinterface]
    rfl
  have hsystem : System.of objects.world (.handle h) =
      ⟨state.toInterface world h.identity, objects.world (.handle k)⟩ := by
    unfold System.of System.containerValue
    rw [hown]
    exact congrArg (fun v => System.mk _ (objects.world v)) hsystem
  rw [hsystem]
  obtain ⟨l, hl⟩ | ⟨l, hl⟩ := hcontainer
  · obtain ⟨world', hlayout⟩ := interfaceAt_of_find? hl
    rw [world_handle hl, hlayout]
    exact ⟨Interface.withoutVersion l, rfl, rfl, rfl, rfl, rfl, rfl⟩
  · obtain ⟨world', hlayout⟩ := interfaceAt_of_find? hl
    rw [world_handle hl, hlayout]
    exact ⟨Interface.withVersion l.layoutAt, rfl, rfl, rfl, rfl, rfl, rfl⟩

end Objects
end NamedSlots
