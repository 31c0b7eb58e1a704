import CallableKinds.Proofs.Classification
import CallableKinds.World.Call
import CallableKinds.World.Lifetime

/-!
# Worlds that come about by events

Calls, probes, deaths and classifications change a world by events only, one after another.
-/

namespace CallableKinds

namespace World

/-- A world comes about from another one by events. -/
def LeadsTo (w w' : World) : Prop := ∃ events, w' = w.run events

namespace LeadsTo

variable {w w' w'' : World} {cls made r : Ref} {args : List Value} {keywords : Keyed String Value}

theorem refl (w : World) : w.LeadsTo w := ⟨[], rfl⟩

theorem event (w : World) (e : Event) : w.LeadsTo (w.perform e) := ⟨[e], rfl⟩

theorem trans (first : w.LeadsTo w') (later : w'.LeadsTo w'') : w.LeadsTo w'' := by
  obtain ⟨events, rfl⟩ := first
  obtain ⟨events', rfl⟩ := later
  exact ⟨events ++ events', (run_append w events events').symm⟩

theorem length_trackers_le (leads : w.LeadsTo w') : w.trackers.length ≤ w'.trackers.length := by
  obtain ⟨events, rfl⟩ := leads
  induction events generalizing w with
  | nil =>
      exact Nat.le_refl _
  | cons e rest ih =>
      exact Nat.le_trans (length_trackers_perform w e) ih

theorem add (w : World) (shape : Shape) : w.LeadsTo (w.add shape) := event w (.create shape none)

theorem setAttribute {name : String} {value : Value} {heap : Heap}
    (done : w.heap.setAttribute r name value = .ok heap) : w.LeadsTo { w with heap } := by
  have hperform : w.perform (.setAttribute r name value) = { w with heap } := by
    rw [perform, done]
  exact hperform ▸ event w _

theorem bind {func : Option Ref} (done : w.bind cls func args keywords = .ok (w', made)) :
    w.LeadsTo w' := by
  have hperform : w.perform (.bind cls func args keywords) = w' := by
    rw [perform, done]
  exact hperform ▸ event w _

theorem copy {deep : Bool} (done : w.copy deep r = .ok (w', made)) : w.LeadsTo w' := by
  have hperform : w.perform (.copy deep r) = w' := by
    rw [perform, done]
  exact hperform ▸ event w _

theorem imitate (w : World) (tracked : Bool) (wrapper wrapped : Ref)
    (assigned updated : List String) :
    w.LeadsTo (w.imitate tracked wrapper wrapped assigned updated).1 :=
  event w (.imitate tracked wrapper wrapped assigned updated)

theorem box (w : World) (v : Value) : w.LeadsTo (w.box v).1 := by
  unfold World.box
  split
  · exact refl w
  · split
    · exact refl w
    · exact add w _
  · exact add w _

theorem runImitation (w : World) (tracked : Bool) (a : Arguments) :
    w.LeadsTo (w.runImitation tracked a).1 := by
  rw [World.runImitation]
  dsimp only
  split
  · exact refl w
  next i assigned updated _ =>
      exact ((box w i.wrapper).trans (box _ i.wrapped)).trans (imitate _ tracked _ _ _ _)

theorem construct (w : World) (cls : Ref) (c : ClassInfo) (a : Arguments) :
    w.LeadsTo (w.construct cls c a).1 := by
  rw [World.construct]
  split
  · exact refl w
  · split
    · exact refl w
    · exact add w _

/-- A call changes the world only where it makes an instance or makes an object look like
another. -/
theorem callFrom (w : World) (fuel : Nat) (r : Ref) (a : Arguments) :
    w.LeadsTo (w.callFrom fuel r a).1 := by
  induction fuel generalizing r a with
  | zero =>
      exact refl w
  | succ fuel ih =>
      rw [World.callFrom]
      split
      next f _ =>
          split
          · exact refl w
          · exact runImitation w _ a
      next c _ => exact construct w r c a
      next =>
          split
          · exact ih ..
          · exact refl w

theorem bindUnwrapped (w : World) (id : Nat) (func : Ref) (a : Arguments) :
    w.LeadsTo (w.bindUnwrapped id func a).1 := by
  rw [World.bindUnwrapped]
  split
  · exact refl w
  · refine (event w (.intercept id)).trans ?_
    dsimp only
    split
    · split
      next hbind => exact bind hbind
      next => exact refl _
    · exact add _ _
    · exact add _ _

theorem probe (w : World) (id : Nat) (p : Probe) (subject : Ref) :
    w.LeadsTo (w.probe id p subject).2 := by
  cases p with
  | constructible =>
      exact (event w (.touch subject)).trans (event _ (.intercept id))
  | constructsOnly =>
      exact event w (.intercept id)

theorem settle (w : World) (names : List Ref) : w.LeadsTo (w.settle names) := by
  fun_induction w.settle names with
  | case1 w buried fewer ih =>
      exact (event w (.perish _)).trans ih
  | case2 w buried kept =>
      exact refl w

end LeadsTo

end World

/-- Probes go on from a world. -/
theorem World.LeadsTo.keptByProbes (w : World) : Study.KeptByProbes w.LeadsTo :=
  fun _ id p r leads => leads.trans (.probe _ id p r)

namespace Inquiry

/-- Requests go on from a world. -/
theorem keptByRequests_leadsTo (w : World) : KeptByRequests fun q => w.LeadsTo q.world where
  text _ _ leads := leads
  classifier _ _ leads := leads
  probe _ id p r leads := World.LeadsTo.keptByProbes w _ id p r leads

end Inquiry

end CallableKinds
