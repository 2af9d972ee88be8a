import Courier.Proofs.Custody
set_option autoImplicit false

namespace Courier

namespace Desk

variable {s : Store}

theorem Guards.returned_holds {sch : Scheduler} {k : Desk} {lost : List Uuid} (guards : Guards sch k lost)
    (returned : k.stop = .returned) : ∀ d ∈ k.store.deliveries, d.claimedBy = some sch.id → d.id ∈ lost := by
  intro d hd held
  have holds : k.store.Holds sch.id d.id := ⟨d, hd, Store.isHeld_iff.mpr ⟨rfl, held⟩⟩
  have halted : k.loop.isOver = true := by
    rcases guards.stop with unasked | asked | halted
    · cases returned.symm.trans unasked
    · cases returned.symm.trans asked
    · exact halted
  have custody := guards.custody d.id holds
  rw [Loop.custody_over halted, returned] at custody
  rcases custody with own | waits | gone
  · cases own
  · cases waits
  · exact gone

/-- What a stopped scheduler holds it lost sight of: by a call of a worker or a release that failed, by a loop that broke
down, or by a claim that was under way when the loop was given up. -/
theorem stopped_holds_strays (sch : Scheduler) (distinct : (s.deliveries.map (·.id)).Nodup)
    (unclaimed : ∀ d ∈ s.deliveries, d.claimedBy ≠ some sch.id) {hs : List Happening}
    (returned : ((started s).run sch hs).stop = .returned) :
    ∀ d ∈ ((started s).run sch hs).store.deliveries, d.claimedBy = some sch.id → d.id ∈ (started s).strays sch hs := by
  exact ((guards_started distinct unclaimed).run hs).returned_holds returned

/-- A scheduler that rests stops at once. -/
theorem stop_resting (sch : Scheduler) {k : Desk} (rests : k.loop = .resting) (unasked : k.stop = .unasked) :
    k.run sch [.ask, .leave, .depart] = { k with loop := .halted none fun _ => none, stop := .returned } := by
  obtain ⟨store, held, loop, stop, last⟩ := k
  obtain rfl : loop = .resting := rests
  obtain rfl : stop = .unasked := unasked
  rfl

def Loop.Quiet : Loop → Prop
  | claiming _ => False
  | scanning _ calls => ∀ id, (calls id).bind Line.handed? = none
  | halted claim calls => claim = none ∧ ∀ id, calls id = none
  | _ => True

namespace Sample
open Fleet.Sample

/-- The store is offline when the only worker writes down what its request came to. -/
def unwritten : List Happening :=
  Sample.claimed ++ calls (second 1) ++ calls (second 1) ++ [.answer parcel unavailable (second 2)] ++
    [.other (.switch false)] ++ calls (second 2) ++ [.finish, .other (.switch true)]

theorem rests_before : ((started due).run scheduler unwritten).loop = .resting := by decide +kernel

def stopped : Desk := (started due).run scheduler (unwritten ++ [.ask, .leave, .depart])

theorem stopped_returned : stopped.stop = .returned ∧ stopped.loop.Quiet := by
  have unasked : ((started due).run scheduler unwritten).stop = .unasked := by decide +kernel
  have last : stopped = ((started due).run scheduler unwritten).run scheduler [.ask, .leave, .depart] :=
    List.foldl_append
  rw [last, stop_resting scheduler rests_before unasked]
  exact ⟨rfl, rfl, fun _ => rfl⟩

end Sample

theorem failed_write_stays_claimed :
    (∀ d ∈ Sample.due.deliveries, d.claimedBy ≠ some Sample.scheduler.id) ∧
      ((started Sample.due).run Sample.scheduler Sample.unwritten).store.online = true ∧
      Sample.stopped.stop = .returned ∧ Sample.stopped.loop.Quiet ∧
      ∃ d ∈ Sample.stopped.store.deliveries, d.claimedBy = some Sample.scheduler.id := by
  obtain ⟨returned, quiet⟩ := Sample.stopped_returned
  exact ⟨by decide +kernel, by decide +kernel, returned, quiet, by decide +kernel⟩

theorem stopped_holds_strays_unwritten : Sample.stopped.stop = .returned ∧
    ∀ d ∈ Sample.stopped.store.deliveries, d.claimedBy = some Sample.scheduler.id → d.id = Fleet.Sample.parcel := by
  refine ⟨Sample.stopped_returned.1, fun d hd held => ?_⟩
  have strays : (started Sample.due).strays Sample.scheduler (Sample.unwritten ++ [.ask, .leave, .depart]) =
      [Fleet.Sample.parcel] := by
    decide +kernel
  have lost := stopped_holds_strays Sample.scheduler (by decide +kernel) (by decide +kernel)
    Sample.stopped_returned.1 d hd held
  rw [strays] at lost
  exact List.mem_singleton.mp lost

end Desk

end Courier
