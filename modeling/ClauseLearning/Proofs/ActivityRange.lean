import ClauseLearning.Proofs.FloatRounding
import ClauseLearning.Proofs.RankOrder
import ClauseLearning.Proofs.Setup
import ClauseLearning.Settings.Parameter

/-!
With settings within their bounds, the activities of a store stay numbers, whatever calls are made
of it: none falls below zero, and what they are scaled by is neither zero nor infinite.
-/

namespace ClauseLearning

namespace Activity

open Float.Model (UnpackedFloat)
open Float.Model.Format (binary64)

structure Nonnegative (a : Activity) : Prop where
  unpacked : Unpacked.Nonnegative a.toFloat.toModel.unpack

structure UpToHalf (a : Activity) : Prop where
  unpacked : Unpacked.UpToHalf a.toFloat.toModel.unpack

structure Normal (low high : Int) (a : Activity) : Prop where
  unpacked : Unpacked.Normal low high a.toFloat.toModel.unpack

variable {a b : Activity} {low high : Int}

theorem Nonnegative.isNumber (nonnegative : a.Nonnegative) : a.isNumber = true :=
  congrArg (!·) nonnegative.unpacked.isNaN

theorem Normal.nonnegative (normal : a.Normal low high) : a.Nonnegative :=
  ⟨normal.unpacked.nonnegative⟩

theorem nonnegative_zero : Nonnegative 0.0 := ⟨trivial⟩

theorem normal_one : Normal (-52) (-52) 1.0 := by
  refine ⟨?_⟩
  change Unpacked.Normal _ _ (.finite .positive (2 ^ 52) (-52) (by decide))
  exact .intro _ _ _ (by decide) le_rfl le_rfl

theorem normal_activityLimit : ClauseStore.activityLimit.Normal 14 14 := by
  refine ⟨?_⟩
  change Unpacked.Normal _ _ (.finite .positive (10 ^ 20 / 2 ^ 14) 14 (by decide))
  exact .intro _ _ _ (by decide) le_rfl le_rfl

theorem combine_eq {operation : Float → Float → Float} (first : a.Nonnegative)
    (second : b.Nonnegative)
    (result : Unpacked.Nonnegative (operation a.toFloat b.toFloat).toModel.unpack) :
    combine operation a b = ofFloat (operation a.toFloat b.toFloat) := by
  have number : (operation a.toFloat b.toFloat).isNaN = false := result.isNaN
  simp only [combine, first.isNumber, second.isNumber, number, Bool.not_true, Bool.false_eq_true,
    if_false]

theorem Nonnegative.add (first : a.Nonnegative) (second : b.Nonnegative) :
    (a + b).Nonnegative := by
  have result := (Unpacked.nonnegative_add first.unpacked second.unpacked).repack
  rw [show a + b = _ from combine_eq first second result]
  exact ⟨result.repack⟩

theorem Nonnegative.mul (first : a.Nonnegative) (second : b.Normal low high) :
    (a * b).Nonnegative := by
  have result := (Unpacked.nonnegative_mul first.unpacked second.unpacked).repack
  rw [show a * b = _ from combine_eq first second.nonnegative result]
  exact ⟨result.repack⟩

theorem UpToHalf.one_sub (half : a.UpToHalf) : Normal (-53) (-52) (1.0 - a) := by
  have result := (Unpacked.normal_one_sub half.unpacked).repack (by decide) (by decide)
  rw [show 1.0 - a = _ from
    combine_eq normal_one.nonnegative ⟨half.unpacked.nonnegative⟩ result.nonnegative]
  exact ⟨result.repack (by decide) (by decide)⟩

theorem Normal.one_div (normal : a.Normal low high) (above : -1074 ≤ low) (below : high ≤ 969) :
    Normal (-105 - high) (-103 - low) (1.0 / a) := by
  have result := (Unpacked.normal_one_div normal.unpacked below).repack (by omega) (by omega)
  rw [show 1.0 / a = _ from combine_eq normal_one.nonnegative normal.nonnegative result.nonnegative]
  exact ⟨result.repack (by omega) (by omega)⟩

theorem unpacked_le {x y : Float} (le : x ≤ y) : x.toModel.unpack.le y.toModel.unpack = true :=
  of_decide_eq_true (p := x.toModel ≤ y.toModel) le

theorem nonnegative_ofFloat {x : Float} (least : 0.0 ≤ x) : (ofFloat x).Nonnegative :=
  ⟨(Unpacked.nonnegative_of_le (unpacked_le least)).repack⟩

theorem upToHalf_ofFloat {x : Float} (least : 0.0 ≤ x) (greatest : x ≤ 0.5) :
    (ofFloat x).UpToHalf :=
  ⟨Unpacked.upToHalf_repack (Unpacked.nonnegative_of_le (unpacked_le least)) (unpacked_le greatest)⟩

end Activity

namespace IndexedHeap

structure Every {α : Type} (P : α → Prop) (h : IndexedHeap α) : Prop where
  blank : P h.blank
  values : ∀ a ∈ h.values, P a

section Every

variable {α : Type} {P : α → Prop} {h h' : IndexedHeap α}

theorem Every.congr (every : h.Every P) (values : h'.values = h.values)
    (blank : h'.blank = h.blank) : h'.Every P :=
  ⟨blank ▸ every.blank, values ▸ every.values⟩

theorem Every.modifyValue (every : h.Every P) (i : Nat) {f : α → α} (kept : ∀ a, P a → P (f a)) :
    (h.modifyValue i f).Every P where
  blank := every.blank
  values a member := by
    obtain ⟨j, found⟩ := Array.mem_iff_getElem?.1 member
    have changed := h.value?_modifyValue i j f
    rw [show (h.modifyValue i f).value? j = some a from found] at changed
    split at changed
    · obtain ⟨b, before, rfl⟩ := Option.map_eq_some_iff.1 changed.symm
      exact kept b (every.values b (Array.mem_of_getElem? before))
    · exact every.values a (Array.mem_of_getElem? changed.symm)

theorem Every.mapValues (every : h.Every P) {f : α → α} (kept : ∀ a, P a → P (f a)) :
    (h.mapValues f).Every P where
  blank := every.blank
  values a member := by
    rw [IndexedHeap.mapValues, Array.mem_map] at member
    obtain ⟨b, member, rfl⟩ := member
    exact kept b (every.values b member)

variable [LT α] [DecidableLT α]

theorem Every.settle (every : h.Every P) (i : Nat) : (h.settle i).Every P :=
  every.congr (values_settle ..) (settle_reordered ..).blank

theorem Every.heapify (every : h.Every P) : h.heapify.Every P :=
  every.congr (values_heapify _) (heapify_reordered _).blank

theorem Every.activate (every : h.Every P) (i : Nat) : (h.activate i).2.Every P :=
  every.congr (values_activate ..) (blank_activate ..)

theorem Every.remove (every : h.Every P) (i : Nat) : (h.remove i).2.Every P :=
  every.congr (values_remove ..) (blank_remove ..)

theorem Every.popMax (every : h.Every P) : h.popMax.2.Every P := by
  unfold IndexedHeap.popMax
  split
  · exact every
  · exact every.remove _

theorem Every.add (every : h.Every P) (i : Nat) (value : α) (new : P value) :
    (h.add i value).2.Every P := by
  unfold IndexedHeap.add
  split
  · rw [setValue_eq]
    exact (every.modifyValue i fun _ _ => new).settle i
  · refine ⟨every.blank, fun a member => ?_⟩
    rcases Array.mem_push.1 member with member | rfl
    · rcases Array.mem_append.1 member with member | member
      · exact every.values a member
      · exact (Array.mem_replicate.1 member).2 ▸ every.blank
    · exact new

end Every

end IndexedHeap

namespace ClauseStore

structure Nonnegative (s : ClauseStore) : Prop where
  decayRate : s.decayRate.UpToHalf
  bump : s.bump.Nonnegative
  ranks : s.ranks.Every (·.activity.Nonnegative)

namespace Nonnegative

variable {s s' : ClauseStore}

theorem congr (nonnegative : s.Nonnegative)
    (scale : (s'.decayRate, s'.bump) = (s.decayRate, s.bump))
    (ranks : s'.ranks.Every (·.activity.Nonnegative)) : s'.Nonnegative := by
  obtain ⟨decayRate, bump⟩ := Prod.mk.inj scale
  exact ⟨decayRate ▸ nonnegative.decayRate, bump ▸ nonnegative.bump, ranks⟩

theorem rescale (nonnegative : s.Nonnegative) : s.rescale.Nonnegative := by
  have factor := Activity.normal_activityLimit.one_div (by decide) (by decide)
  exact ⟨nonnegative.decayRate, nonnegative.bump.mul factor,
    (nonnegative.ranks.mapValues fun _ before => before.mul factor).heapify⟩

theorem raise (nonnegative : s.Nonnegative) (key : ClauseKey) : (s.raise key).Nonnegative := by
  cases key with
  | addition i token =>
    have scaled : (if s.raiseRescales (.addition i token) then s.rescale else s).Nonnegative := by
      split
      · exact nonnegative.rescale
      · exact nonnegative
    exact ⟨scaled.decayRate, scaled.bump,
      (scaled.ranks.modifyValue i fun _ before => before.add scaled.bump).settle i⟩
  | _ => exact nonnegative

theorem decay (nonnegative : s.Nonnegative) : s.decay.Nonnegative := by
  have grown : { s with bump := s.grownBump }.Nonnegative :=
    ⟨nonnegative.decayRate,
      nonnegative.bump.mul (nonnegative.decayRate.one_sub.one_div (by decide) (by decide)),
      nonnegative.ranks⟩
  unfold ClauseStore.decay
  simp only
  split
  · exact grown.rescale
  · exact grown

theorem numeric (nonnegative : s.Nonnegative) : s.Numeric := by
  intro c _ rank found
  unfold rank? at found
  split at found
  · exact (nonnegative.ranks.values rank (Array.mem_of_getElem? found)).isNumber
  · cases found

end Nonnegative

end ClauseStore

theorem Settings.WithinBounds.nonnegative {settings : Settings} (bounds : settings.WithinBounds) :
    (Solver.new settings).clauses.store.Nonnegative := by
  have bump := bounds _ (.tail _ (.tail _ (.head _)))
  have decayRate := bounds _ (.tail _ (.tail _ (.tail _ (.head _))))
  rw [Parameter.admits, Bool.and_eq_true] at bump decayRate
  exact {
    decayRate := Activity.upToHalf_ofFloat (of_decide_eq_true decayRate.1)
      (of_decide_eq_true decayRate.2)
    bump := Activity.nonnegative_ofFloat (of_decide_eq_true bump.1)
    ranks := ⟨Activity.nonnegative_zero, fun _ member => absurd member (Array.not_mem_empty _)⟩ }

theorem Reduction.reactivate_every {P : ClauseRank → Prop} {ranks : IndexedHeap ClauseRank}
    (every : ranks.Every P) (kept : List Nat) : (reactivate ranks kept).Every P := by
  induction kept with
  | nil => exact every
  | cons i rest ih => exact ih.activate i

namespace WatchedStore

variable {s : WatchedStore}

theorem insert_nonnegative (nonnegative : s.store.Nonnegative) (value : Atom → Option Bool)
    (level : Atom → Option Nat) (c : Clause) (origin : ClauseOrigin) (blockDistance : Option Nat) :
    (s.insert value level c origin blockDistance).2.store.Nonnegative := by
  refine nonnegative.congr (observe_insert ClauseStore.lasting_scale ..) ?_
  rcases s.ranks_insert value level c origin blockDistance with same | ⟨i, distance, changed⟩
  · rw [same]
    exact nonnegative.ranks
  · rw [changed]
    exact (nonnegative.ranks.add i ⟨s.store.bump, distance⟩ nonnegative.bump).activate i

theorem remove_nonnegative (nonnegative : s.store.Nonnegative) (key : ClauseKey) :
    (s.remove key).2.store.Nonnegative := by
  have detached : (s.detach key).2.store.Nonnegative := by
    refine nonnegative.congr (observe_detach ClauseStore.lasting_scale s key) ?_
    rw [s.ranks_detach key]
    exact nonnegative.ranks
  unfold remove
  split <;> rename_i answer <;> rw [answer] at detached
  · exact detached
  · exact ⟨detached.decayRate, detached.bump, detached.ranks.remove key.index⟩

theorem reduce_nonnegative (nonnegative : s.store.Nonnegative) (source : Atom → Option Source)
    (count : Nat) : (s.reduce source count).2.store.Nonnegative := by
  refine nonnegative.congr (observe_reduce ClauseStore.lasting_scale source s count) ?_
  obtain ⟨store, watches⟩ := s
  have visited := Reduction.visit_ranks (P := IndexedHeap.Every fun rank => rank.activity.Nonnegative)
    (fun _ before => before.popMax) source store.ranks.activeCount count
    { state := ⟨{ store with ranks := { blank := {} } }, watches⟩, ranks := store.ranks }
    nonnegative.ranks
  simp only [reduce]
  split <;> rename_i answer <;> rw [answer] at visited
  · exact visited
  · exact Reduction.reactivate_every visited _

end WatchedStore

namespace RecordedStore

variable {r : RecordedStore}

theorem perform_nonnegative (nonnegative : r.state.store.Nonnegative) (call : StoreCall) :
    (r.perform call).state.store.Nonnegative := by
  cases call with
  | insert value level c distinct origin blockDistance =>
    have after := WatchedStore.insert_nonnegative nonnegative value level c origin blockDistance
    simp only [perform]
    split <;> rename_i answer <;> rwa [answer] at after
  | remove key =>
    have after := WatchedStore.remove_nonnegative nonnegative key
    simp only [perform]
    split <;> rename_i answer <;> rwa [answer] at after
  | reduce source count => exact WatchedStore.reduce_nonnegative nonnegative source count
  | raise key => exact nonnegative.raise key
  | decay => exact nonnegative.decay
  | propagate s l =>
    let s : Solver := { s with clauses := r.state }
    have scale := Solver.observe_propagateLiteral (fun s => (s.decayRate, s.bump))
      (fun _ key _ => by cases key <;> rfl) s l
    exact nonnegative.congr scale (s.ranks_propagateLiteral l ▸ nonnegative.ranks)

theorem performAll_numeric {settings : Settings} (bounds : settings.WithinBounds)
    (calls : List StoreCall) : ((new settings).performAll calls).state.store.Numeric := by
  suffices nonnegative : ∀ r : RecordedStore, r.state.store.Nonnegative →
      (r.performAll calls).state.store.Nonnegative from (nonnegative _ bounds.nonnegative).numeric
  intro r nonnegative
  induction calls generalizing r with
  | nil => exact nonnegative
  | cons call rest ih => exact ih _ (perform_nonnegative nonnegative call)

end RecordedStore

end ClauseLearning
