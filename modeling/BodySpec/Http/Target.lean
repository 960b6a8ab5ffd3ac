/-!
# Request targets

A target is a path that may have a query (`/a?q`), an absolute address (`http://host/a?q`), an authority alone
(`host:80`), or a star. Its path ends before the query and the fragment. An authority alone has the empty path, and an
absolute address without a path has the path `/`. Targets are taken to be well formed: a text with a slash that neither
begins with it nor has a scheme is none. So two slashes after the first colon tell an absolute address from an authority
alone: no scheme holds a colon, and no authority a slash.
-/

namespace BodySpec.Http.Target

/-- The beginning of a query or a fragment. -/
def endsPath (c : Char) : Bool := c == '?' || c == '#'

/-- The text before the query and the fragment. -/
def beforeQuery (s : List Char) : List Char := s.takeWhile fun c => !endsPath c

/-- What follows the authority of an absolute address. Its scheme ends at the first colon. -/
def afterAuthority? (s : List Char) : Option (List Char) :=
  match s.dropWhile (· != ':') with
  | ':' :: '/' :: '/' :: s => some (s.dropWhile fun c => c != '/' && !endsPath c)
  | _ => none

/-- The path of a target. -/
def path (s : List Char) : List Char :=
  match s with
  | '/' :: _ => beforeQuery s
  | ['*'] => ['*']
  | _ =>
    match (afterAuthority? s).map beforeQuery with
    | none => []
    | some [] => ['/']
    | some p => p

/-- A path has neither query nor fragment. -/
theorem endsPath_of_mem_path {s : List Char} {c : Char} (h : c ∈ path s) : endsPath c = false := by
  have before : ∀ {t : List Char}, c ∈ beforeQuery t → endsPath c = false := by
    intro t ht
    simpa using List.all_eq_true.mp List.all_takeWhile c ht
  unfold path at h
  split at h
  · exact before h
  · rw [List.mem_singleton.mp h]; rfl
  · split at h
    · cases h
    · rw [List.mem_singleton.mp h]; rfl
    · rename_i p hp
      obtain ⟨t, _, rfl⟩ := Option.map_eq_some_iff.mp hp
      exact before h

end BodySpec.Http.Target
