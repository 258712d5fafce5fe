import CuttingPlanes.Files.Tree
import CuttingPlanes.Proofs.Association
import CuttingPlanes.Proofs.Outcome

/-! A text that is written is what the path leads to and what is read there. -/

namespace CuttingPlanes.FileTree

open Files (Path)

variable {tree after : FileTree} {path : Path} {text : String}

/-- What is put at a place below the root is there, and all other places stay as they are. -/
theorem node?_put {place : Place} (below : place ≠ []) (node : FileNode) (other : Place) :
    (tree.put place node).node? other = if place = other then some node else tree.node? other := by
  by_cases root : other = []
  · simp [node?, root, below]
  · simp [node?, root, put, Association.find?_insert]

/-- A place that is no directory is not the root. -/
theorem ne_nil_of_node?_ne {place : Place} (free : tree.node? place ≠ some .directory) :
    place ≠ [] := by
  rintro rfl
  exact free rfl

/-- Steps lead where they did when something is put at a place that is no directory. -/
theorem follow_put {place here target : Place} {steps : List String}
    (free : tree.node? place ≠ some .directory) (node : FileNode)
    (led : tree.follow path here steps = .ok target) :
    (tree.put place node).follow path here steps = .ok target := by
  induction steps generalizing here with
  | nil => exact led
  | cons step rest ih =>
    rw [follow] at led ⊢
    -- Every step is taken in a directory, and so from another place.
    split at led
    case h_4 found =>
      have other : place ≠ here := fun same => free (same ▸ found)
      rw [node?_put (ne_nil_of_node?_ne free), if_neg other, found]
      dsimp only
      split at led
      case isTrue upwards =>
        rw [if_pos upwards]
        exact ih led
      case isFalse downwards =>
        split at led
        case isTrue => cases led
        case isFalse short =>
          rw [if_neg downwards, if_neg short]
          exact ih led
    all_goals cases led

/-- A text that is written is what the path leads to, but where texts are taken and not held. -/
theorem get_of_write (written : tree.write path text = .ok after) :
    after.get path = .ok (.file text) ∨ after = tree ∧ tree.get path = .ok .sink := by
  obtain ⟨place, placed, written⟩ := bind_eq_ok.1 written
  split at written
  case h_1 => cases written
  case h_2 sink =>
    refine .inr ⟨(Except.ok.inj written).symm, ?_⟩
    simp [get, placed, sink, bind, Except.bind, pure, Except.pure]
  case h_3 occupied _ =>
    have same : tree.put place (.file text) = after := Except.ok.inj written
    have free : tree.node? place ≠ some .directory := occupied
    obtain ⟨⟨⟩, checked, led⟩ := bind_eq_ok.1 placed
    have still : after.place path = .ok place := by
      subst same
      exact bind_eq_ok.2 ⟨(), checked, follow_put free _ led⟩
    left
    subst same
    simp [get, still, node?_put (ne_nil_of_node?_ne free), bind, Except.bind, pure, Except.pure]

/-- A file is read as its text. -/
theorem read_of_get (led : tree.get path = .ok (.file text)) : tree.read path = .ok text := by
  rw [read, led]
  rfl

/-- A text that is written can be read. -/
theorem exists_read_of_write (written : tree.write path text = .ok after) :
    ∃ found, after.read path = .ok found := by
  rcases get_of_write written with led | ⟨rfl, led⟩
  · exact ⟨text, read_of_get led⟩
  · -- What takes every text is read as the empty one.
    exact ⟨"", by rw [read, led]; rfl⟩

/-- A change leaves the files changed, or as they are when it is refused. -/
theorem meets_change {changed : FileTree → Except Fault FileTree} {given : Unit → FileTree → Prop}
    {failed : Interrupt → FileTree → Prop} :
    (change changed).Meets tree given failed ↔
      match changed tree with
      | .ok after => given () after
      | .error fault => failed (.raised fault) tree := by
  simp only [change, Action.meets_bind, Action.meets_get, Action.meets_ofExcept]
  cases changed tree <;> rfl

/-- There is something where a path leads to something. -/
theorem has_of_get {node : FileNode} (led : tree.get path = .ok node) :
    tree.has path = .ok true := by
  rw [has, led]

end CuttingPlanes.FileTree
