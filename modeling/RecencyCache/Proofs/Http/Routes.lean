import RecencyCache.Http.Route

/-!
# Paths of routes

Each route has one path for each segment that it may carry, and no other path leads to it. Dividing
a path at its slashes and putting the segments together again are inverse to each other, so the
route of a path can be read off its text.
-/

namespace RecencyCache.Http.Route

/-! ## Segments -/

theorem segments_ne_nil (path : List Char) : segments path ≠ [] := by
  fun_cases segments path
  all_goals simp

/-- A character that is no slash belongs to the first segment. -/
theorem segments_cons {c : Char} (inside : c ≠ '/') (rest : List Char) :
    segments (c :: rest) = (segments rest).modifyHead (c :: ·) := by
  rw [segments]
  · cases divided : segments rest with
    | nil => exact absurd divided (segments_ne_nil rest)
    | cons segment others => rfl
  · exact inside

theorem segments_eq_splitOn (path : List Char) : segments path = path.splitOn '/' := by
  induction path with
  | nil => rfl
  | cons c rest ih =>
      rw [List.splitOn_eq_splitOnP, List.splitOnP_cons_eq_if_modifyHead, ← List.splitOn_eq_splitOnP,
        ← ih]
      by_cases slash : c = '/'
      · subst slash
        rfl
      · rw [segments_cons slash, if_neg (by simpa using slash)]

/-- No segment has a slash. -/
theorem slash_not_mem_of_mem_segments {path segment : List Char}
    (member : segment ∈ segments path) : '/' ∉ segment := by
  induction path generalizing segment with
  | nil =>
      obtain rfl := List.mem_singleton.mp member
      exact List.not_mem_nil
  | cons c rest ih =>
      by_cases slash : c = '/'
      · subst slash
        rcases List.mem_cons.mp member with rfl | later
        · exact List.not_mem_nil
        · exact ih later
      · cases divided : segments rest with
        | nil => exact absurd divided (segments_ne_nil rest)
        | cons first others =>
            rw [segments_cons slash, divided, List.modifyHead_cons] at member
            rw [divided] at ih
            rcases List.mem_cons.mp member with rfl | later
            · rw [List.mem_cons, not_or]
              exact ⟨Ne.symm slash, ih (.head _)⟩
            · exact ih (.tail _ later)

/-! ## Texts -/

/-- The names that stand for the route, followed by the segment that it carries. -/
def names : Route → List String
  | .set => ["set"]
  | .get segment => ["get", segment]
  | .delete segment => ["del", segment]
  | .capacity => ["capacity"]
  | .statistics => ["stats"]
  | .diagnosis => ["info"]
  | .health => ["health"]

/-- The path of the route. -/
def text : Route → String
  | .set => "/set"
  | .get segment => "/get/" ++ segment
  | .delete segment => "/del/" ++ segment
  | .capacity => "/capacity"
  | .statistics => "/stats"
  | .diagnosis => "/info"
  | .health => "/health"

/-- The route has no name that is empty or divided by a slash. -/
def IsProper (route : Route) : Prop := ∀ name ∈ route.names, name ≠ "" ∧ '/' ∉ name.toList

theorem toList_text (route : Route) :
    route.text.toList = ['/'].intercalate ([] :: route.names.map String.toList) := by
  cases route <;> simp [text, names, List.intercalate]

theorem ofSegments?_eq_some_iff {segments : List String} {route : Route} :
    ofSegments? segments = some route ↔ segments = route.names ∧ "" ∉ route.names := by
  constructor
  · intro found
    rw [ofSegments?.eq_def] at found
    split at found
    case h_2 segment | h_3 segment =>
      split at found
      · cases found
      · rename_i filled
        cases found
        simpa [names] using Ne.symm filled
    all_goals cases found
    all_goals simp [names]
  · rintro ⟨rfl, proper⟩
    cases route
    all_goals simp_all [ofSegments?, names]

/-- The paths that lead to a route are divided into its names. -/
theorem segments_text {route : Route} (proper : route.IsProper) :
    segments route.text.toList = [] :: route.names.map String.toList := by
  rw [segments_eq_splitOn, toList_text, List.splitOn_intercalate]
  · intro segment member
    rcases List.mem_cons.mp member with rfl | member
    · exact List.not_mem_nil
    · obtain ⟨name, named, rfl⟩ := List.mem_map.mp member
      exact (proper name named).2
  · exact List.cons_ne_nil _ _

/-- A path leads to a route if it is the text of the route. -/
theorem ofPath?_eq_some_iff {path : String} {route : Route} :
    ofPath? path = some route ↔ path = route.text ∧ route.IsProper := by
  constructor
  · intro found
    rw [ofPath?] at found
    split at found
    · rename_i rest divided
      obtain ⟨sameNames, filled⟩ := ofSegments?_eq_some_iff.mp found
      have names : rest = route.names.map String.toList := by
        rw [← sameNames, List.map_map]
        simp [Function.comp_def]
      constructor
      · rw [← String.toList_inj, toList_text, ← names, ← divided, segments_eq_splitOn,
          List.intercalate_splitOn]
      · intro name named
        have segment : name.toList ∈ segments path.toList := by
          rw [divided, names]
          exact .tail _ (List.mem_map_of_mem named)
        exact ⟨ne_of_mem_of_not_mem named filled, slash_not_mem_of_mem_segments segment⟩
    · cases found
  · rintro ⟨rfl, proper⟩
    simp only [ofPath?, segments_text proper, ofSegments?_eq_some_iff, List.map_map]
    exact ⟨by simp [Function.comp_def], fun empty => (proper "" empty).1 rfl⟩

end RecencyCache.Http.Route
