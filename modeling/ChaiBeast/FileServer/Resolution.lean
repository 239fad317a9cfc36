import ChaiBeast.FileServer.Serve
import ChaiBeast.Paths

namespace ChaiBeast.FileServer

/-! Which file a request target resolves to, and when that file lies directly in
the directory that is served. -/

def tmp : RootPath := ⟨"/tmp/".toList, by decide, by decide, by decide⟩

/-- What stands behind the last slash is the name of a file. -/
def NamesFile (target : CppString) : Prop :=
  ∃ front name, target = front ++ '/' :: name ∧ '/' ∉ name ∧
    name ≠ [] ∧ name ≠ ['.'] ∧ name ≠ ['.', '.']

theorem back_append (front : List α) (last : α) : back (front ++ [last]) = .ok last := by
  simp [back, subscript]

/-- The name is what stands behind the last slash, and only the target that is
nothing but a slash has none. -/
theorem fileToFetch_eq {front name : CppString} (rooted : (front ++ '/' :: name).head? = some '/')
    (clear : '/' ∉ name) :
    fileToFetch (front ++ '/' :: name) =
      if front = [] ∧ name = [] then .error .badSubscript else .ok (tmp.text ++ name) := by
  have prefixed : "/tmp".toList ++ "/".toList = tmp.text := rfl
  cases front with
  | nil =>
      have cut : substr ('/' :: name) 1 = .ok name := substr_append ['/'] name
      by_cases empty : name = []
      · subst empty
        rfl
      · have last : back (split name '/') = .ok name := by
          rw [split_of_clear empty clear]
          exact back_append [] name
        simp only [List.nil_append, fileToFetch, cut, last, ok_bind, pure_eq_ok, prefixed]
        simp [empty]
  | cons c front =>
      obtain rfl : c = '/' := by simpa using rooted
      have cut : substr ('/' :: (front ++ '/' :: name)) 1 = .ok (front ++ '/' :: name) :=
        substr_append ['/'] _
      have last : back (split (front ++ '/' :: name) '/') = .ok name := by
        have pieces : split (front ++ '/' :: name) '/' = front.splitOn '/' ++ [name] := by
          simp [split, List.splitOn_append_cons_self, List.splitOn_eq_singleton clear]
        rw [pieces, back_append]
      simp only [List.cons_append, fileToFetch, cut, last, ok_bind, pure_eq_ok, prefixed]
      simp

/-- A target resolves to a file directly in the directory exactly when it names
one behind its last slash. -/
theorem fileToFetch_confined_iff {target : CppString} (rooted : target.head? = some '/') :
    ((∀ filetofetch, substr target 1 = .ok filetofetch → split filetofetch '/' ≠ []) ∧
        ∃ path, fileToFetch target = .ok path ∧ PathDirectlyIn tmp.text path) ↔
      NamesFile target := by
  have slash : '/' ∈ target := List.mem_of_mem_head? rooted
  constructor
  · intro resolved
    obtain ⟨_, path, fetched, inside⟩ := resolved
    obtain ⟨front, name, rfl, clear⟩ := exists_last_split slash
    rw [fileToFetch_eq rooted clear] at fetched
    split at fetched
    · cases fetched
    · cases fetched
      exact ⟨front, name, rfl, clear, (tmp.pathDirectlyIn_append_iff clear).mp inside⟩
  · intro names
    obtain ⟨front, name, rfl, clear, proper⟩ := names
    have named : ¬ (front = [] ∧ name = []) := fun bare => proper.1 bare.2
    have fetched := fileToFetch_eq rooted clear
    rw [if_neg named] at fetched
    refine ⟨?_, _, fetched, (tmp.pathDirectlyIn_append_iff clear).mpr proper⟩
    intro filetofetch cut empty
    simp [fileToFetch, cut, empty, back, subscript] at fetched

theorem fileToFetch_confined_iff_index :
    ∃ path, fileToFetch "/static/index.html".toList = .ok path ∧ PathDirectlyIn tmp.text path :=
  ((@fileToFetch_confined_iff "/static/index.html".toList (by decide)).mpr
    ⟨"/static".toList, "index.html".toList, by decide⟩).2

/-- A target without a name reads before the vector, and a dot name leaves the
directory. -/
theorem dot_names_leave_tmp :
    let resolves := fun target : CppString =>
      (∀ filetofetch, substr target 1 = .ok filetofetch → split filetofetch '/' ≠ []) ∧
        ∃ path, fileToFetch target = .ok path ∧ PathDirectlyIn tmp.text path
    fileToFetch "/".toList = .error .badSubscript ∧ ¬ resolves "/".toList ∧
      fileToFetch "/static/".toList = .ok "/tmp/".toList ∧ ¬ resolves "/static/".toList ∧
      fileToFetch "/..".toList = .ok "/tmp/..".toList ∧ ¬ resolves "/..".toList := by
  intro resolves
  have outside : ∀ {target file : CppString}, fileToFetch target = .ok file →
      ¬ PathDirectlyIn tmp.text file → ¬ resolves target := by
    intro target file fetched outside resolved
    obtain ⟨_, path, again, inside⟩ := resolved
    rw [fetched, Except.ok.injEq] at again
    exact outside (again ▸ inside)
  have parent : fileToFetch "/..".toList = .ok "/tmp/..".toList := by decide
  have directory : fileToFetch "/static/".toList = .ok "/tmp/".toList := by decide
  refine ⟨by decide, fun resolved => resolved.1 [] (by decide) rfl, directory,
    outside directory (by decide), parent, outside parent (by decide)⟩

/-- Where a target names a file, the response depends on nothing outside the
directory. -/
theorem respond_confined (calls : Calls) {other : CppString → Http.FileBody × ErrorCode}
    {req : Request} (rooted : req.target.head? = some '/') (names : NamesFile req.target)
    (noNul : '\x00' ∉ req.target)
    (agree : ∀ path, PathDirectlyIn tmp.text path → other path = calls.openScan path) :
    respond { calls with openScan := other } req = respond calls req := by
  obtain ⟨front, name, shape, clear, proper⟩ := names
  have fetched := fileToFetch_eq (shape ▸ rooted) clear
  rw [← shape, if_neg fun bare => proper.1 bare.2] at fetched
  have whole : cString (tmp.text ++ name) = tmp.text ++ name := by
    apply cString_of_noNul
    rw [shape] at noNul
    have named : '\x00' ∉ name := fun member => noNul (by simp [member])
    simpa [List.mem_append, named] using tmp.noNul
  have same := agree _ ((tmp.pathDirectlyIn_append_iff clear).mpr proper)
  simp only [respond, fetched, whole, same, ok_bind]
  rfl

end ChaiBeast.FileServer
