/-
What is read is finite. Every number in a value that a text can denote is finite,
and a number that a reader supplies for a missing field is one of the few that
stand in the catalogue of slots; so all numbers are finite in what is read as a
scalar, a figure or a feature.
-/
import PartPlan.Proofs.Document.Feature
import PartPlan.Proofs.Json.Origin

namespace PartPlan

open Json (Sound)

-- ================================================================ scalars

theorem Scalar.grants_isFinite : Json.Grants ofReadable? IsFinite := by
  intro v s sound given
  fun_induction ofReadable? v generalizing s with
  | case1 v x number =>
    cases given
    exact sound.isFinite_of_float? number
  | case2 v _ x unit fields =>
    simp only [Option.bind_eq_bind, Option.bind_eq_some_iff] at given
    obtain ⟨y, number, _, _, same⟩ := given
    cases same
    obtain ⟨w, rfl, number⟩ := Option.bind_eq_some_iff.1 number
    exact (sound.of_taggedFields? fields _ (by simp) w rfl).isFinite_of_float? number
  | case3 v _ id fields =>
    obtain ⟨_, _, rfl⟩ := Option.map_eq_some_iff.1 given
    trivial
  | case4 v _ op left right fields ihl ihr =>
    simp only [Option.bind_eq_bind, Option.bind_eq_some_iff] at given
    obtain ⟨_, _, l, hl, r, hr, same⟩ := given
    cases same
    exact ⟨ihl _ (sound.of_taggedFields? fields _ (by simp) left rfl) hl,
      ihr _ (sound.of_taggedFields? fields _ (by simp) right rfl) hr⟩
  | case5 v _ operand fields ih =>
    obtain ⟨t, ht, rfl⟩ := Option.map_eq_some_iff.1 given
    exact ih t (sound.of_taggedFields? fields _ (by simp) operand rfl) ht
  | case6 => cases given

-- ======================================================= points and figures

theorem Point2.grants_isFinite : Json.Grants ofReadable? IsFinite := by
  intro v p sound given
  unfold ofReadable? at given
  split at given
  · next x y =>
    simp only [Option.bind_eq_bind, Option.bind_eq_some_iff] at given
    obtain ⟨a, ha, b, hb, same⟩ := given
    cases same
    exact ⟨Scalar.grants_isFinite x a (sound.of_items x (by simp)) ha,
      Scalar.grants_isFinite y b (sound.of_items y (by simp)) hb⟩
  · cases given

theorem Point3.grants_isFinite : Json.Grants ofReadable? IsFinite := by
  intro v p sound given
  unfold ofReadable? at given
  split at given
  · next x y z =>
    simp only [Option.bind_eq_bind, Option.bind_eq_some_iff] at given
    obtain ⟨a, ha, b, hb, c, hc, same⟩ := given
    cases same
    exact ⟨Scalar.grants_isFinite x a (sound.of_items x (by simp)) ha,
      Scalar.grants_isFinite y b (sound.of_items y (by simp)) hb,
      Scalar.grants_isFinite z c (sound.of_items z (by simp)) hc⟩
  · cases given

theorem Axis.grants_isFinite : Json.Grants ofReadable? IsFinite := by
  intro v a sound given
  unfold ofReadable? at given
  split at given
  · obtain ⟨d, _, rfl⟩ := Option.map_eq_some_iff.1 given
    trivial
  · split at given
    · next fields =>
      obtain ⟨p, hp, rfl⟩ := Option.map_eq_some_iff.1 given
      exact Point3.grants_isFinite.required (sound.of_taggedFields? fields _ (by simp)) hp
    · cases given
      trivial
    · cases given

theorem Point2.isFinite_origin : Point2.origin.IsFinite :=
  ⟨Number.isFinite_zero, Number.isFinite_zero⟩

theorem Profile.grants_isFinite (style : Json.TagStyle) :
    Json.Grants (ofReadable? style) IsFinite := by
  intro v p sound given
  have scalar := Scalar.grants_isFinite
  have center := Point2.grants_isFinite
  unfold ofReadable? at given
  split at given
  · next fields =>
    have sound := sound.of_taggedFields? fields
    simp only [Option.bind_eq_bind, Option.bind_eq_some_iff] at given
    obtain ⟨w, hw, h, hh, c, hc, same⟩ := given
    cases same
    exact ⟨scalar.required (sound _ (by simp)) hw, scalar.required (sound _ (by simp)) hh,
      center.defaulted (sound _ (by simp)) Point2.isFinite_origin hc⟩
  · next fields =>
    have sound := sound.of_taggedFields? fields
    simp only [Option.bind_eq_bind, Option.bind_eq_some_iff] at given
    obtain ⟨r, hr, c, hc, same⟩ := given
    cases same
    exact ⟨scalar.required (sound _ (by simp)) hr,
      center.defaulted (sound _ (by simp)) Point2.isFinite_origin hc⟩
  · next fields =>
    have sound := sound.of_taggedFields? fields
    simp only [Option.bind_eq_bind, Option.bind_eq_some_iff] at given
    obtain ⟨n, hn, r, hr, c, hc, t, ht, same⟩ := given
    cases same
    exact ⟨scalar.required (sound _ (by simp)) hn, scalar.required (sound _ (by simp)) hr,
      center.defaulted (sound _ (by simp)) Point2.isFinite_origin hc,
      scalar.optional (sound _ (by simp)) ht⟩
  · obtain ⟨name, _, rfl⟩ := Option.map_eq_some_iff.1 given
    trivial
  · cases given

theorem NamedProfile.grants_isFinite :
    Json.Grants ofReadable? fun p => p.profile.IsFinite := by
  intro v p sound given
  simp only [ofReadable?, Option.bind_eq_bind, Option.bind_eq_some_iff] at given
  obtain ⟨fs, fields, given⟩ := given
  split at given
  · simp only [Option.bind_eq_some_iff] at given
    obtain ⟨name, _, profile, hp, same⟩ := given
    cases same
    exact (Profile.grants_isFinite _).required (sound.of_fields? fields _ (by simp)) hp
  · cases given

theorem Depth.grants_isFinite : Json.Grants ofReadable? IsFinite := by
  intro v d sound given
  unfold ofReadable? at given
  split at given
  · next keyword =>
    cases given
    obtain ⟨c, hc, rfl⟩ := Json.exists_of_keyword? keyword
    obtain rfl := List.mem_singleton.1 hc
    trivial
  · obtain ⟨s, hs, rfl⟩ := Option.map_eq_some_iff.1 given
    exact Scalar.grants_isFinite v s sound hs

theorem Sweep.grants_isFinite : Json.Grants ofReadable? IsFinite := by
  intro v a sound given
  unfold ofReadable? at given
  split at given
  · next keyword =>
    cases given
    obtain ⟨c, hc, rfl⟩ := Json.exists_of_keyword? keyword
    obtain rfl := List.mem_singleton.1 hc
    trivial
  · obtain ⟨s, hs, rfl⟩ := Option.map_eq_some_iff.1 given
    exact Scalar.grants_isFinite v s sound hs

-- =============================================================== features

theorem SlotType.grants_isFinite (t : SlotType) : Json.Grants t.ofReadable? t.IsFinite := by
  cases t with
  | axis => exact Axis.grants_isFinite
  | length => exact Scalar.grants_isFinite
  | size => exact Scalar.grants_isFinite
  | count => exact Scalar.grants_isFinite
  | point2 => exact Point2.grants_isFinite
  | point3 => exact Point3.grants_isFinite
  | depth => exact Depth.grants_isFinite
  | sweep => exact Sweep.grants_isFinite
  | profile => exact Profile.grants_isFinite _
  | sections => exact (Profile.grants_isFinite _).list?
  | declarations => exact NamedProfile.grants_isFinite.list?
  | _ => exact fun _ _ _ _ => trivial

/-- The value that a slot holds when it is left out is finite. -/
def Slot.FiniteDefault (s : Slot) : Prop :=
  match s.presence with
  | .defaulted value => s.type.IsFinite value
  | _ => True

theorem FeatureKind.finite_default (k : FeatureKind) : ∀ s ∈ k.slots, s.FiniteDefault := by
  have zero := Number.isFinite_zero
  cases k <;>
    simp only [slots, List.forall_mem_cons, List.not_mem_nil, IsEmpty.forall_iff, implies_true,
      Slot.FiniteDefault, Slot.required, Slot.optional, Slot.defaulted, and_true, true_and]
  case datumPlane => exact zero
  case datumAxis => exact ⟨zero, zero, zero⟩
  case revolve => trivial
  case hole => exact Point2.isFinite_origin
  case circularPattern => trivial

theorem Slot.isFinite_of_ofField? {s : Slot} {f : Option Json} {v : s.Value}
    (default : s.FiniteDefault) (sound : ∀ w ∈ f, Sound w) (given : s.ofField? f = some v) :
    s.IsFinite v := by
  obtain ⟨name, type, presence⟩ := s
  cases presence with
  | required =>
    rintro w same
    cases same
    exact type.grants_isFinite.required sound given
  | optional => exact type.grants_isFinite.optional sound given
  | defaulted value =>
    rintro w same
    cases same
    exact type.grants_isFinite.defaulted sound default given

theorem Payload.isFinite_of_ofFields? {ss : List Slot} {fs : List (Option Json)} {p : Payload ss}
    (defaults : ∀ s ∈ ss, s.FiniteDefault) (sound : ∀ f ∈ fs, ∀ w ∈ f, Sound w)
    (given : ofFields? ss fs = some p) : p.IsFinite ss := by
  induction ss generalizing fs with
  | nil => trivial
  | cons s ss ih =>
    cases fs with
    | nil => cases given
    | cons f fs =>
      obtain ⟨here, later⟩ := List.forall_mem_cons.1 defaults
      obtain ⟨field, fields⟩ := List.forall_mem_cons.1 sound
      simp only [ofFields?, Option.bind_eq_bind, Option.bind_eq_some_iff] at given
      obtain ⟨v, hv, q, hq, same⟩ := given
      cases same
      exact ⟨Slot.isFinite_of_ofField? here field hv, ih later fields hq⟩

theorem Feature.grants_isFinite : Json.Grants ofReadable? IsFinite := by
  intro v f sound given
  simp only [ofReadable?, Option.bind_eq_bind, Option.bind_eq_some_iff] at given
  obtain ⟨ms, _, fs, _, given⟩ := given
  split at given
  · simp only [Option.bind_eq_some_iff, Prod.exists] at given
    obtain ⟨id, _, deps, _, tags, _, kind, fields, tagged, payload, hp, same⟩ := given
    cases same
    exact Payload.isFinite_of_ofFields? kind.finite_default (sound.of_taggedFields? tagged) hp
  · cases given

end PartPlan
