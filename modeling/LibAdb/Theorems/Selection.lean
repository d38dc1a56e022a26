import LibAdb.Execution.Selection

namespace TransportRequest

variable {r : TransportRequest} {env : HostEnvironment} {list : List ListedTransport}
  {t : ListedTransport} {found : Acquired} {error : Bytes}

-- The transports that a request can mean.
def Matches (r : TransportRequest) (env : HostEnvironment) (t : ListedTransport) : Bool :=
  t.connectionState ≠ .noPerm &&
    if r.transportId ≠ 0 then t.id = r.transportId else r.selects env t

def Acceptable (r : TransportRequest) (state : ConnectionState) : Prop :=
  r.acceptAnyState ∨ state ∉ [.connecting, .authorizing, .unauthorized, .offline]

def explain (env : HostEnvironment) (list : List ListedTransport) (error : Bytes) : Bytes :=
  if list.any (·.connectionState = .noPerm) then env.usbNoPermissionsLongHelpText else error

def settle (r : TransportRequest) (env : HostEnvironment) (t : ListedTransport) : Acquired :=
  r.finish env { result := some t, error := [] }

def conclude (r : TransportRequest) (env : HostEnvironment) (error : Bytes) :
    List ListedTransport → Acquired
  | [] => { error }
  | [t] => r.settle env t
  | _ => { ambiguous := true, error := r.moreThanOne }

theorem explain_cons (t : ListedTransport) (list : List ListedTransport) (error : Bytes) :
    explain env (t :: list) error = explain env list
      (if t.connectionState = .noPerm then env.usbNoPermissionsLongHelpText else error) := by
  rw [explain, explain, List.any_cons]
  by_cases hp : t.connectionState = .noPerm
  case pos => simp [hp]
  case neg => simp [hp]

theorem finish_some (h : found.result = some t) (hf : found.ambiguous = false) :
    r.finish env found = r.settle env t := by
  obtain ⟨_, _, error⟩ := found
  cases h
  cases hf
  rw [settle, finish, finish]

theorem search_unmatched (h : r.Matches env t = false) :
    r.search env (t :: list) found = r.search env list
      { found with
        error := if t.connectionState = .noPerm then env.usbNoPermissionsLongHelpText
          else found.error } := by
  rw [search]
  by_cases hp : t.connectionState = .noPerm
  case pos => rw [if_pos hp, if_pos hp]
  case neg =>
    rw [if_neg hp, if_neg hp]
    by_cases hi : r.transportId = 0
    case pos =>
      have unselected : ¬r.selects env t := by simpa [Matches, hp, hi] using h
      rw [if_neg (not_not_intro hi), if_neg unselected]
    case neg =>
      have other : t.id ≠ r.transportId := by simpa [Matches, hp, hi] using h
      rw [if_pos hi, if_neg other]

theorem search_matched_id (hi : r.transportId ≠ 0) (h : r.Matches env t) :
    r.search env (t :: list) found = { found with result := some t } := by
  obtain ⟨hp, same⟩ : t.connectionState ≠ .noPerm ∧ t.id = r.transportId := by
    simpa [Matches, hi] using h
  rw [search, if_neg hp, if_pos hi, if_pos same]

theorem search_matched (hi : r.transportId = 0) (h : r.Matches env t) :
    r.search env (t :: list) found =
      if found.result.isSome then { result := none, ambiguous := true, error := r.moreThanOne }
      else r.search env list { found with result := some t } := by
  obtain ⟨hp, selected⟩ : t.connectionState ≠ .noPerm ∧ r.selects env t := by
    simpa [Matches, hi] using h
  rw [search, if_neg hp, if_neg (not_not_intro hi), if_pos selected]

theorem finish_search_id (hi : r.transportId ≠ 0) :
    r.finish env (r.search env list { error }) =
      r.conclude env (explain env list error) (list.find? (r.Matches env)).toList := by
  induction list generalizing error
  case nil => rfl
  case cons t list hr =>
    cases matched : r.Matches env t
    case false =>
      rw [search_unmatched matched, hr, List.find?_cons_of_neg (by simp [matched]), explain_cons]
    case true =>
      rw [search_matched_id hi matched, List.find?_cons_of_pos matched]
      exact finish_some rfl rfl

theorem finish_search_some (hi : r.transportId = 0) :
    r.finish env (r.search env list { result := some t, error }) =
      if list.filter (r.Matches env) = [] then r.settle env t
      else { ambiguous := true, error := r.moreThanOne } := by
  induction list generalizing error
  case nil => exact finish_some rfl rfl
  case cons u list hr =>
    cases matched : r.Matches env u
    case false => rw [search_unmatched matched, hr, List.filter_cons_of_neg (by simp [matched])]
    case true =>
      rw [search_matched hi matched, List.filter_cons_of_pos matched]
      rfl

theorem finish_search_none (hi : r.transportId = 0) :
    r.finish env (r.search env list { error }) =
      r.conclude env (explain env list error) (list.filter (r.Matches env)) := by
  induction list generalizing error
  case nil => rfl
  case cons u list hr =>
    cases matched : r.Matches env u
    case false =>
      rw [search_unmatched matched, hr, List.filter_cons_of_neg (by simp [matched]), explain_cons]
    case true =>
      rw [search_matched hi matched, List.filter_cons_of_pos matched]
      show r.finish env (r.search env list { result := some u, error }) = _
      rw [finish_search_some hi]
      cases list.filter (r.Matches env)
      case nil => rfl
      case cons => rfl

theorem id_of_matches (hi : r.transportId ≠ 0) (h : r.Matches env t) : t.id = r.transportId := by
  simpa [Matches, hi] using (Bool.and_eq_true_iff.mp h).2

theorem filter_eq_find (hi : r.transportId ≠ 0) (ids : (list.map (·.id)).Nodup) :
    list.filter (r.Matches env) = (list.find? (r.Matches env)).toList := by
  induction list
  case nil => rfl
  case cons t list hr =>
    rw [List.map_cons, List.nodup_cons] at ids
    rw [List.filter_cons, List.find?_cons]
    cases matched : r.Matches env t
    case false => exact hr ids.2
    case true =>
      have none : list.filter (r.Matches env) = [] := by
        rw [List.filter_eq_nil_iff]
        intro u hu other
        have same := (id_of_matches hi other).trans (id_of_matches hi matched).symm
        exact ids.1 (List.mem_map.mpr ⟨u, hu, same⟩)
      rw [if_pos rfl, none]
      rfl

theorem acquireOneTransport_eq (ids : (list.map (·.id)).Nodup) :
    r.acquireOneTransport env list =
      r.conclude env (explain env list r.notFound) (list.filter (r.Matches env)) := by
  rw [acquireOneTransport]
  by_cases hi : r.transportId = 0
  case pos => exact finish_search_none hi
  case neg => rw [finish_search_id hi, filter_eq_find hi ids]

theorem conclude_perm {l l' : List ListedTransport} (h : l.Perm l') (error : Bytes) :
    r.conclude env error l = r.conclude env error l' := by
  obtain _ | ⟨t, _ | ⟨u, l⟩⟩ := l
  case nil => rw [h.nil_eq]
  case cons.nil => rw [List.singleton_perm.mp h]
  case cons.cons =>
    have length := h.length_eq
    obtain _ | ⟨t', _ | ⟨u', l'⟩⟩ := l'
    case nil => cases length
    case cons.nil => cases length
    case cons.cons => rfl

theorem explain_perm {l l' : List ListedTransport} (h : l.Perm l') (error : Bytes) :
    explain env l error = explain env l' error := by
  rw [explain, explain, h.any_eq]

theorem stateError_eq_none_iff (env : HostEnvironment) (state : ConnectionState) :
    stateError env state = none ↔
      state ∉ [.connecting, .authorizing, .unauthorized, .offline] := by
  cases state
  all_goals simp [stateError]

theorem acceptable_iff (env : HostEnvironment) (state : ConnectionState) : r.Acceptable state ↔
    (stateError env state).filter (fun _ => !r.acceptAnyState) = none := by
  rw [Acceptable, ← stateError_eq_none_iff env, Option.filter_eq_none_iff]
  cases stateError env state
  case none => simp
  case some => simp

theorem settle_eq (t : ListedTransport) : r.settle env t =
    ((stateError env t.connectionState).filter fun _ => !r.acceptAnyState).elim
      { result := some t, error := ascii "success" } fun error => { error } := by
  simp only [settle, finish]
  cases (stateError env t.connectionState).filter fun _ => !r.acceptAnyState
  case none => rfl
  case some => rfl

theorem settle_result (t u : ListedTransport) :
    (r.settle env t).result = some u ↔ t = u ∧ r.Acceptable t.connectionState := by
  rw [settle_eq, acceptable_iff env]
  cases (stateError env t.connectionState).filter fun _ => !r.acceptAnyState
  case none => simp
  case some => simp

theorem settle_ambiguous (t : ListedTransport) : (r.settle env t).ambiguous = false := by
  rw [settle_eq]
  cases (stateError env t.connectionState).filter fun _ => !r.acceptAnyState
  case none => rfl
  case some => rfl

theorem conclude_result (error : Bytes) (l : List ListedTransport) (t : ListedTransport) :
    (r.conclude env error l).result = some t ↔ l = [t] ∧ r.Acceptable t.connectionState := by
  obtain _ | ⟨u, _ | ⟨v, l⟩⟩ := l
  case nil => simp [conclude]
  case cons.nil =>
    rw [conclude, settle_result, List.singleton_inj]
    constructor
    case mp =>
      rintro ⟨rfl, state⟩
      exact ⟨rfl, state⟩
    case mpr =>
      rintro ⟨rfl, state⟩
      exact ⟨rfl, state⟩
  case cons.cons => simp [conclude]

theorem conclude_ambiguous (error : Bytes) (l : List ListedTransport) :
    (r.conclude env error l).ambiguous = true ↔ 2 ≤ l.length := by
  obtain _ | ⟨u, _ | ⟨v, l⟩⟩ := l
  case nil => simp [conclude]
  case cons.nil => simp [conclude, settle_ambiguous]
  case cons.cons => simp [conclude]

end TransportRequest

namespace TransportList

variable (l : TransportList) (r : TransportRequest) (env : HostEnvironment)

-- The transports without a permission problem that match the request.
def matching : List ListedTransport :=
  l.entries.filter (r.Matches env)

theorem acquireOneTransport_spec :
    (∀ t, (r.acquireOneTransport env l.entries).result = some t ↔
      l.matching r env = [t] ∧ r.Acceptable t.connectionState) ∧
    ((r.acquireOneTransport env l.entries).ambiguous ↔
      2 ≤ (l.matching r env).length ∧ r.transportId = 0) ∧
    ∀ l' : TransportList, l.entries.Perm l'.entries →
      r.acquireOneTransport env l'.entries = r.acquireOneTransport env l.entries := by
  have outcome (l : TransportList) : r.acquireOneTransport env l.entries = _ :=
    r.acquireOneTransport_eq l.ids
  refine ⟨?_, ?_, ?_⟩
  · intro t
    rw [outcome, r.conclude_result]
    rfl
  · rw [outcome, r.conclude_ambiguous, matching]
    constructor
    case mp =>
      intro several
      refine ⟨several, ?_⟩
      by_contra hi
      rw [r.filter_eq_find hi l.ids] at several
      have := Option.length_toList_le (o := l.entries.find? (r.Matches env))
      omega
    case mpr => exact And.left
  · intro l' h
    rw [outcome, outcome, TransportRequest.explain_perm h, r.conclude_perm (h.filter _)]

end TransportList
