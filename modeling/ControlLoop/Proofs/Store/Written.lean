import ControlLoop.Proofs.Effects.Apply
import ControlLoop.Proofs.Store.Collapsed
import ControlLoop.Proofs.Touch
import ControlLoop.Simulation

/-!
# Effects at the store

Effects that are applied at the store write to it once or not at all. If another
cycle is to follow, a patch was written, or there is a reason that none was: the
object is gone, a signal interrupted the sleep, or the touch asks for what the
markers hold already. Otherwise the store is as it was.
-/

set_option autoImplicit false

namespace ControlLoop

namespace Store

/-- A patch was written to the object: it was merged into the body, the collapsing fields that then
held nothing were removed, and the log has one more patch. -/
structure Written (before : Store) (patch : Patch) (after : Store) : Prop where
  object : ∃ body result, before.object = some body ∧ after.object = some result ∧
    Collapses before.collapsing (body.merge patch.toJson) result
  writes : after.writes = before.writes ++ [patch]
  collapsing : after.collapsing = before.collapsing
  failing : after.failing = before.failing

/-- How a store stands at the end of something that may write to it, and ask for another cycle to
follow. -/
inductive EndsUp (follows stale : Prop) (before : Store) (c : Clock) : Store → Prop where
  /-- No cycle is to follow. -/
  | untouched (settled : ¬ follows) : EndsUp follows stale before c before
  /-- There is no object. -/
  | gone (pending : follows) (deleted : before.object = none) : EndsUp follows stale before c before
  /-- The flag has interrupted a sleep. -/
  | interrupted (pending : follows) (signalled : c.signals.isSet .flag = true) :
      EndsUp follows stale before c before
  /-- A touch had nothing to ask for. -/
  | redundant (pending : follows) (worn : stale) : EndsUp follows stale before c before
  /-- One patch was written. -/
  | written (pending : follows) {patch : Patch} {after : Store}
      (changed : before.Written patch after) : EndsUp follows stale before c after

variable {follows follows' stale : Prop} {before after : Store} {c : Clock}

theorem EndsUp.congr (h : EndsUp follows stale before c after) (hiff : follows ↔ follows') :
    EndsUp follows' stale before c after := by
  cases h with
  | untouched settled => exact .untouched fun pending => settled (hiff.2 pending)
  | gone pending deleted => exact .gone (hiff.1 pending) deleted
  | interrupted pending signalled => exact .interrupted (hiff.1 pending) signalled
  | redundant pending worn => exact .redundant (hiff.1 pending) worn
  | written pending changed => exact .written (hiff.1 pending) changed

theorem EndsUp.eq_of_not (h : EndsUp follows stale before c after) (settled : ¬ follows) :
    after = before := by
  cases h with
  | untouched _ => rfl
  | gone pending _ => exact absurd pending settled
  | interrupted pending _ => exact absurd pending settled
  | redundant pending _ => exact absurd pending settled
  | written pending _ => exact absurd pending settled

/-- There was no write, or one. -/
theorem EndsUp.eq_or_written (h : EndsUp follows stale before c after) :
    after = before ∨ ∃ patch, before.Written patch after := by
  cases h with
  | untouched _ => exact .inl rfl
  | gone _ _ => exact .inl rfl
  | interrupted _ _ => exact .inl rfl
  | redundant _ _ => exact .inl rfl
  | written _ changed => exact .inr ⟨_, changed⟩

/-- A cycle is to follow without a write because the object is gone or the flag is set, unless the
touch had nothing to ask for. -/
theorem EndsUp.gone_or_signalled (h : EndsUp follows stale before c after) (pending : follows)
    (hsame : after.writes = before.writes) (fresh : ¬ stale) :
    after.object = none ∨ c.signals.isSet .flag = true := by
  cases h with
  | untouched settled => exact absurd pending settled
  | gone _ deleted => exact .inl deleted
  | interrupted _ signalled => exact .inr signalled
  | redundant _ worn => exact absurd worn fresh
  | written _ changed =>
    rw [changed.writes] at hsame
    exact absurd hsame (by simp)

section Write

variable (known : List FieldPath) {patch : Patch} (body : Body) (world : World Scene)

/-- A checked write ends as the store answers, and leaves the store that the write does. -/
theorem patchAndCheck_apply (h : patch.isEmpty = false) :
    (Scene.patcher.patchAndCheck known patch body world).1 =
      (world.env.store.patch patch).1.map (fun _ => ()) ∧
    (Scene.patcher.patchAndCheck known patch body world).2.env.store =
      (world.env.store.patch patch).2 := by
  rw [Patcher.patchAndCheck_nonempty _ _ _ _ h]
  exact ⟨rfl, rfl⟩

/-- A write that the store does not refuse is done, unless there is no object. -/
theorem endsUp_patchAndCheck (h : patch.isEmpty = false) :
    EndsUp ((Scene.patcher.patchAndCheck known patch body world).1 = .ok ()) stale world.env.store c
      (Scene.patcher.patchAndCheck known patch body world).2.env.store := by
  obtain ⟨hresult, hstore⟩ := patchAndCheck_apply known body world h
  rw [hresult, hstore, Store.patch]
  split
  · refine .untouched fun hok => ?_
    cases hok
  · next hobject => exact .gone rfl hobject
  · next old _ hobject =>
    have hcollapses : Collapses world.env.store.collapsing (old.merge patch.toJson)
        (collapse world.env.store.collapsing (old.merge patch.toJson)) := (collapses_iff rfl).2 rfl
    exact .written rfl ⟨⟨old, _, hobject, rfl, hcollapses⟩, rfl, rfl, rfl⟩

end Write

end Store

namespace Effects

theorem map_eq_ok_false_iff {result : Except Error Unit} :
    (result.map fun _ => false) = .ok false ↔ result = .ok () := by
  cases result with
  | error e => simp [Except.map]
  | ok _ => simp [Except.map]

variable (settings : Settings) (body : Body) (world : World Scene)

/-- A touch with a fresh stamp is a write. -/
theorem endsUp_touch (c : Clock) :
    Store.EndsUp (((ofSettings Scene.patcher settings).touch body world).1 = .ok ())
      (¬ Marker.Fresh settings.persistence.markerFields body world.nextStamp) world.env.store c
      ((ofSettings Scene.patcher settings).touch body world).2.env.store := by
  rw [touch_apply]
  cases hempty : (Marker.touch (ofSettings Scene.patcher settings).markers body .empty
      (some world.nextStamp)).isEmpty with
  | false => exact Store.endsUp_patchAndCheck _ body { world with stampsDrawn := _ } hempty
  | true =>
    rw [Patcher.patchAndCheck_empty _ _ _ _ hempty]
    refine .redundant rfl fun hfresh => ?_
    have hfull := Marker.isEmpty_touch_of_fresh settings.persistence hfresh
    rw [show settings.persistence.markerFields = (ofSettings Scene.patcher settings).markers from
      rfl, hempty] at hfull
    cases hfull

/-- Effects end with a cycle to follow, or leave the store as it was. -/
theorem endsUp_apply (patch : Patch) (delays : DelaySet) {ended : Except Error Bool × World Scene}
    (hended : (ofSettings Scene.patcher settings).apply body patch delays (some .flag) world =
      ended) :
    Store.EndsUp (ended.1 = .ok false)
      (¬ Marker.Fresh settings.persistence.markerFields body world.nextStamp) world.env.store
      ended.2.clock ended.2.env.store := by
  subst hended
  cases hempty : patch.isEmpty with
  | false =>
    rw [apply_nonempty _ _ _ _ _ hempty]
    exact (Store.endsUp_patchAndCheck _ body world (isEmpty_outgoing _ body hempty)).congr
      map_eq_ok_false_iff.symm
  | true =>
    cases hdelay : delays.minimum with
    | none =>
      rw [apply_idle _ _ _ _ hempty hdelay]
      refine .untouched fun hpending => ?_
      cases hpending
    | some delay =>
      rw [apply_waiting _ _ _ _ hempty hdelay]
      cases hsleep : world.clock.sleepOrWait
          (.single (min delay (ofSettings Scene.patcher settings).keepalive)) (some .flag) with
      | mk left later =>
        cases left with
        | some left =>
          obtain ⟨w, hw, hset⟩ := Clock.isSet_of_sleepOrWait_some hsleep
          cases hw
          exact .interrupted rfl hset
        | none =>
          exact (endsUp_touch settings body ((world.noted (sleepingNotes _ delay)).withClock later)
            _).congr map_eq_ok_false_iff.symm

end Effects

end ControlLoop
