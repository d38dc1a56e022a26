import LibAdb.Objects.Transport
import Mathlib.Data.List.TakeWhile

-- What a transport knows of the other side's features after any banners.

theorem List.mem_intercalate_iff {c x : α} {l : List (List α)} (hx : x ≠ c) :
    x ∈ [c].intercalate l ↔ ∃ a ∈ l, x ∈ a := by
  induction l
  case nil => simp [List.intercalate]
  case cons a l hi =>
    cases l
    case nil => simp [List.intercalate]
    case cons b l =>
      rw [List.intercalate_cons_cons, List.mem_append, List.mem_append, hi,
        List.exists_mem_cons_iff (a := a)]
      simp [hx]

namespace ATransport

variable {t : ATransport} {features : List Bytes} {name value banner : Bytes}

def featuresProperty (prop : Bytes) : Option Bytes :=
  match prop.splitOn 61 with
  | [key, value] => if key = ascii "features" then some value else none
  | _ => none

def bannerProps (banner : Bytes) : List Bytes :=
  match banner.splitOn 58 with
  | _ :: _ :: props :: _ => props.splitOn 59
  | _ => []

-- The last of these properties counts, and there are no features without one.
def bannerFeatures (banner : Bytes) : List Bytes :=
  stringToFeatureSet (((bannerProps banner).filterMap featuresProperty).getLast?.getD [])

def flags (t : ATransport) : List Bytes × Bool :=
  (t.features, t.delayedAck)

def flagsOf (value : Bytes) : List Bytes × Bool :=
  (stringToFeatureSet value, canUseFeature (stringToFeatureSet value) (ascii "delayed_ack"))

theorem flags_parseProp (t : ATransport) (prop : Bytes) :
    (t.parseProp prop).flags = (featuresProperty prop).elim t.flags flagsOf := by
  rw [parseProp, featuresProperty]
  generalize prop.splitOn 61 = pieces
  obtain _ | ⟨key, _ | ⟨value, _ | _⟩⟩ := pieces
  case cons.cons.nil =>
    by_cases hf : key = ascii "features"
    case pos =>
      subst hf
      rfl
    case neg =>
      simp only [apply_ite flags, hf, if_false]
      simp [flags]
  all_goals rfl

theorem flags_foldl (props : List Bytes) (t : ATransport) :
    (props.foldl parseProp t).flags =
      (props.filterMap featuresProperty).getLast?.elim t.flags flagsOf := by
  induction props generalizing t
  case nil => rfl
  case cons prop props hi =>
    rw [List.foldl_cons, hi, flags_parseProp, List.filterMap_cons]
    cases featuresProperty prop
    case none => rfl
    case some value =>
      rw [List.getLast?_cons]
      cases (props.filterMap featuresProperty).getLast?
      case none => rfl
      case some => rfl

theorem flags_parseBanner (t : ATransport) (banner : Bytes) :
    (t.parseBanner banner).flags =
      (bannerFeatures banner, canUseFeature (bannerFeatures banner) (ascii "delayed_ack")) := by
  have start : (t.setFeatures []).flags = flagsOf [] := rfl
  have props : (t.parseBanner banner).flags =
      ((bannerProps banner).foldl parseProp (t.setFeatures [])).flags := by
    rw [parseBanner, bannerProps]
    generalize banner.splitOn 58 = pieces
    obtain _ | ⟨type, _ | ⟨middle, _ | ⟨props, rest⟩⟩⟩ := pieces
    all_goals rfl
  rw [props, flags_foldl, start, bannerFeatures]
  cases ((bannerProps banner).filterMap featuresProperty).getLast?
  case none => rfl
  case some => rfl

-- Names in which the separators of a banner do not occur.
def Names (features : List Bytes) : Prop :=
  ∀ name ∈ features, name ≠ [] ∧ ∀ c ∈ [58, 59, 61, 44], c ∉ name

-- A banner with nothing but the features.
theorem bannerFeatures_host (h : ∀ c ∈ [58, 59, 61], c ∉ value) :
    bannerFeatures (ascii "host" ++ ascii "::" ++ (ascii "features=" ++ value)) =
      stringToFeatureSet value := by
  have property (c : UInt8) (hc : c ∈ [58, 59]) : c ∉ ascii "features=" ++ value := by
    have plain : c ∉ ascii "features=" := by
      intro letter
      simp only [List.mem_cons, List.not_mem_nil, or_false] at hc
      obtain rfl | rfl := hc
      all_goals
        revert letter
        decide
    rw [List.mem_append, not_or]
    exact ⟨plain, h c (List.mem_append_left [61] hc)⟩
  have pieces : (ascii "host" ++ ascii "::" ++ (ascii "features=" ++ value)).splitOn 58 =
      [ascii "host", [], ascii "features=" ++ value] := by
    have text : ascii "host" ++ ascii "::" ++ (ascii "features=" ++ value) =
        [58].intercalate [ascii "host", [], ascii "features=" ++ value] := by
      simp [List.intercalate, ascii]
    rw [text]
    refine List.splitOn_intercalate 58 ?_ (List.cons_ne_nil _ _)
    simp only [List.forall_mem_cons, List.not_mem_nil, not_false_eq_true, IsEmpty.forall_iff,
      implies_true, and_true, true_and]
    exact ⟨by decide, property 58 (by decide)⟩
  have props : bannerProps (ascii "host" ++ ascii "::" ++ (ascii "features=" ++ value)) =
      [ascii "features=" ++ value] := by
    rw [bannerProps, pieces]
    exact List.splitOn_eq_singleton (property 59 (by decide))
  have found : featuresProperty (ascii "features=" ++ value) = some value := by
    have sides : (ascii "features=" ++ value).splitOn 61 = [ascii "features", value] := by
      have text : ascii "features=" ++ value = [61].intercalate [ascii "features", value] := by
        simp [List.intercalate, ascii]
      rw [text]
      refine List.splitOn_intercalate 61 ?_ (List.cons_ne_nil _ _)
      simp only [List.forall_mem_cons, List.not_mem_nil, IsEmpty.forall_iff, implies_true, and_true]
      exact ⟨by decide, h 61 (by decide)⟩
    rw [featuresProperty, sides]
    exact if_pos rfl
  rw [bannerFeatures, props, List.filterMap_cons, found]
  rfl

def printed (features : List Bytes) : Bytes :=
  (featureSetToString features).takeWhile (· != 0)

theorem zero_not_mem_printed (features : List Bytes) : 0 ∉ printed features := by
  intro zero
  simpa using List.mem_takeWhile_imp zero

theorem connectionString_eq (features : List Bytes) : connectionString features =
    ascii "host" ++ ascii "::" ++ (ascii "features=" ++ printed features) := by
  have whole : (ascii "features=" ++ printed features).takeWhile (· != 0) =
      ascii "features=" ++ printed features := by
    rw [List.takeWhile_eq_self_iff]
    intro x hx
    rw [List.mem_append] at hx
    have plain : 0 ∉ ascii "features=" := by decide
    obtain hx | hx := hx
    case inl => exact bne_iff_ne.mpr fun he => plain (he ▸ hx)
    case inr => exact bne_iff_ne.mpr fun he => zero_not_mem_printed features (he ▸ hx)
  rw [← whole]
  simp [connectionString, printed, List.intercalate]

theorem stringToFeatureSet_toString (h : Names features) :
    stringToFeatureSet (featureSetToString features) = features := by
  obtain _ | ⟨name, features⟩ := features
  case nil => rfl
  case cons =>
    have nonempty : featureSetToString (name :: features) ≠ [] := by
      have ⟨c, hc⟩ := List.exists_mem_of_ne_nil name (h name (.head _)).1
      have comma : c ≠ 44 := fun he => (h name (.head _)).2 44 (by decide) (he ▸ hc)
      exact List.ne_nil_of_mem ((List.mem_intercalate_iff comma).mpr ⟨name, .head _, hc⟩)
    rw [stringToFeatureSet, if_neg nonempty]
    exact List.splitOn_intercalate 44 (fun a ha => (h a ha).2 44 (by decide))
      (List.cons_ne_nil _ _)

theorem mem_of_mem_stringToFeatureSet (hn : name ∈ stringToFeatureSet value) (hc : c ∈ name)
    (comma : c ≠ 44) : c ∈ value := by
  rw [stringToFeatureSet] at hn
  split at hn
  case isTrue => cases hn
  case isFalse =>
    rw [show value = [44].intercalate (value.splitOn 44) from (List.intercalate_splitOn 44).symm]
    exact (List.mem_intercalate_iff comma).mpr ⟨name, hn, hc⟩

theorem features_connectionString_iff (h : Names features) :
    bannerFeatures (connectionString features) = features ↔ ∀ name ∈ features, 0 ∉ name := by
  have separators c (hc : c ∈ [58, 59, 61]) : c ∉ printed features := by
    intro found
    have inside := (List.takeWhile_prefix _).subset found
    have comma : c ≠ 44 := by
      rintro rfl
      revert hc
      decide
    obtain ⟨name, hn, member⟩ := (List.mem_intercalate_iff comma).mp inside
    exact (h name hn).2 c (List.mem_append_left [44] hc) member
  rw [connectionString_eq, bannerFeatures_host separators]
  constructor
  case mp =>
    intro same name hn zero
    rw [← same] at hn
    exact zero_not_mem_printed features (mem_of_mem_stringToFeatureSet hn zero (by decide))
  case mpr =>
    intro plain
    have whole : printed features = featureSetToString features := by
      refine List.takeWhile_eq_self_iff.mpr fun c hc => bne_iff_ne.mpr ?_
      rintro rfl
      obtain ⟨name, hn, zero⟩ := (List.mem_intercalate_iff (by decide)).mp hc
      exact plain name hn zero
    rw [whole, stringToFeatureSet_toString h]

theorem banners_determine_features (h : Names features) (t : ATransport) (banners : List Bytes) :
    ((t.parseBanner (connectionString features)).features = features ↔
      ∀ name ∈ features, 0 ∉ name) ∧
    ∀ last, ((banners ++ [last]).foldl parseBanner t).features = bannerFeatures last ∧
      (((banners ++ [last]).foldl parseBanner t).delayedAck ↔
        ascii "delayed_ack" ∈ bannerFeatures last ∧ ascii "delayed_ack" ∈ supportedFeatures) := by
  have features' (t : ATransport) (banner : Bytes) :
      (t.parseBanner banner).features = bannerFeatures banner :=
    congrArg Prod.fst (flags_parseBanner t banner)
  have delayed (t : ATransport) (banner : Bytes) : (t.parseBanner banner).delayedAck =
      canUseFeature (bannerFeatures banner) (ascii "delayed_ack") :=
    congrArg Prod.snd (flags_parseBanner t banner)
  refine ⟨by rw [features', features_connectionString_iff h], ?_⟩
  intro last
  rw [List.foldl_append, List.foldl_cons, List.foldl_nil, features', delayed, canUseFeature,
    Bool.and_eq_true, List.contains_iff_mem, List.contains_iff_mem]
  exact ⟨rfl, Iff.rfl⟩

def twoFeatures : List Bytes :=
  [ascii "shell_v2", ascii "delayed_ack"]

theorem banners_determine_two_features : Names twoFeatures ∧
    (parseBanner {} (connectionString twoFeatures)).features = twoFeatures := by
  have names : Names twoFeatures := by
    simp [Names, twoFeatures, ascii]
  exact ⟨names, ((banners_determine_features names {} []).1).mpr (by decide)⟩

-- A name with a NUL is cut off where it is printed.
theorem connectionString_cuts_name :
    (parseBanner {} (connectionString [[97, 0, 98]])).features = [[97]] := by
  decide +kernel

end ATransport
