import Mathlib

/-!
# Lexical normal form of a path

A path with slashes is cut into its root and its components. Empty
components and single dots are dropped, a double dot takes the component
before it away, and nothing lies above a root. A directory keeps its last
slash. No file is looked at, and nothing here depends on a particular
program.
-/

namespace Gcad.LexicalPath

/-- The root of a path, a slash or a drive letter with one, and the rest. -/
def splitRoot : List Char → List Char×List Char
  | '/'::rest => (['/'],rest)
  | drive:: ':':: '/'::rest =>
    if drive.isAlpha then ([drive,':','/'],rest) else ([],drive:: ':':: '/'::rest)
  | path => ([],path)

/-- Root and rest are the path. -/
theorem splitRoot_append (path : List Char) : (splitRoot path).1++(splitRoot path).2=path := by
  unfold splitRoot
  split
  · rfl
  · split
    · rfl
    · rfl
  · rfl

/-- Add one component to the components kept so far, the last one first. -/
def push (rooted : Bool) (kept : List (List Char)) (component : List Char) : List (List Char) :=
  if component=[] ∨ component=['.'] then kept
  else if component=['.','.'] then
    match kept with
    | [] => if rooted then [] else [component]
    | top::below => if top=['.','.'] then component::kept else below
  else component::kept

/-- The components left when dots and double dots are resolved. -/
def resolve (rooted : Bool) (components : List (List Char)) : List (List Char) :=
  (components.foldl (push rooted) []).reverse

/-- A component that names neither the directory itself nor the one above. -/
def Dotless (component : List Char) : Prop := component≠['.'] ∧ component≠['.','.']

/-- A dotless component can be told. -/
instance (component : List Char) : Decidable (Dotless component) :=
  inferInstanceAs (Decidable (_ ∧ _))

/-- The slash after a directory: the last component was empty, a dot or a
resolved double dot. -/
def trailing (kept components : List (List Char)) : List Char :=
  if kept≠[] ∧ kept.getLast?≠some ['.','.'] ∧
      ∃ last ∈ components.getLast?, last=[] ∨ ¬Dotless last then ['/'] else []

/-- The normal form. A nonempty path that resolves to nothing is a dot. -/
def normalForm (path : List Char) : List Char :=
  let root := splitRoot path
  let components := root.2.splitOn '/'
  let kept := resolve (decide (root.1≠[])) components
  let text := root.1++['/'].intercalate kept++trailing kept components
  if text=[] ∧ path≠[] then ['.'] else text

/-- Only the empty path has an empty normal form. -/
theorem normalForm_eq_nil {path : List Char} (h : normalForm path=[]) : path=[] := by
  unfold normalForm at h
  dsimp only at h
  split at h
  · cases h
  · next hcase =>
    by_contra hne
    exact hcase ⟨h,hne⟩

/-- A path already spelled in normal form: no dot or double dot, and no
empty component but the last. -/
structure Clean (path : List Char) : Prop where
  /-- Every component is dotless. -/
  dotless : ∀ component ∈ (splitRoot path).2.splitOn '/', Dotless component
  /-- No separator is repeated. -/
  single : [] ∉ ((splitRoot path).2.splitOn '/').dropLast

/-- Named components are all kept. -/
theorem foldl_push {components : List (List Char)} (rooted : Bool) (kept : List (List Char))
    (hdot : ∀ component ∈ components, Dotless component) (hempty : [] ∉ components) :
    components.foldl (push rooted) kept=components.reverse++kept := by
  induction components generalizing kept with
  | nil => rfl
  | cons head rest ih =>
    have hhead := hdot head List.mem_cons_self
    have hne : head≠[] := fun he => hempty (he ▸ List.mem_cons_self)
    have hpush : push rooted kept head=head::kept := by
      unfold push
      rw [if_neg (not_or.mpr ⟨hne,hhead.1⟩),if_neg hhead.2]
    rw [List.foldl_cons,hpush,ih _ (fun c hc => hdot c (List.mem_cons_of_mem _ hc))
      fun hc => hempty (List.mem_cons_of_mem _ hc)]
    rw [List.reverse_cons,List.append_assoc,List.singleton_append]

/-- An empty last component stands for a last slash. -/
theorem intercalate_snoc_nil {components : List (List Char)} (h : components≠[]) :
    ['/'].intercalate (components++[[]])=['/'].intercalate components++['/'] := by
  induction components with
  | nil => exact absurd rfl h
  | cons head rest ih =>
    cases rest with
    | nil => simp
    | cons next rest =>
      rw [List.cons_append,List.cons_append,List.intercalate_cons_cons,←List.cons_append,
        ih (List.cons_ne_nil _ _),List.intercalate_cons_cons,List.append_assoc,List.append_assoc,
        List.append_assoc]

/-- Components with a name each, the last one possibly empty, are put back
together unchanged. -/
theorem resolve_intercalate {components : List (List Char)} (rooted : Bool) (h : components≠[])
    (hdot : ∀ component ∈ components, Dotless component) (hempty : [] ∉ components.dropLast) :
    ['/'].intercalate (resolve rooted components)++trailing (resolve rooted components) components=
      ['/'].intercalate components := by
  obtain ⟨init,last,rfl⟩ := List.eq_nil_or_concat components |>.resolve_left h
  rw [List.concat_eq_append] at hdot hempty ⊢
  rw [List.dropLast_concat] at hempty
  have hinit : ∀ component ∈ init, Dotless component :=
    fun c hc => hdot c (List.mem_append_left _ hc)
  have hlast : Dotless last := hdot last (List.mem_append_right _ List.mem_cons_self)
  have hfold := foldl_push rooted [] hinit hempty
  rw [List.append_nil] at hfold
  by_cases hnil : last=[]
  · have hkept : resolve rooted (init++[last])=init := by
      unfold resolve
      rw [List.foldl_append,hfold,hnil]
      simp [push]
    rw [hkept,hnil]
    unfold trailing
    by_cases hi : init=[]
    · simp [hi]
    · have hend : init.getLast?≠some ['.','.'] := by
        intro he
        exact (hinit _ (List.mem_of_getLast? he)).2 rfl
      rw [if_pos ⟨hi,hend,[],by simp,.inl rfl⟩,intercalate_snoc_nil hi]
  · have hkept : resolve rooted (init++[last])=init++[last] := by
      unfold resolve
      rw [foldl_push rooted [] hdot (by simp [hempty,Ne.symm hnil]),List.append_nil,
        List.reverse_reverse]
    rw [hkept]
    unfold trailing
    rw [if_neg (by simp [hnil,hlast]),List.append_nil]

/-- A clean path is its own normal form. -/
theorem Clean.normalForm_eq {path : List Char} (h : Clean path) : normalForm path=path := by
  have hne : (splitRoot path).2.splitOn '/'≠[] := List.splitOn_ne_nil _ _
  unfold normalForm
  dsimp only
  rw [List.append_assoc,resolve_intercalate _ hne h.dotless h.single,List.intercalate_splitOn,
    splitRoot_append,if_neg fun hc => hc.2 hc.1]

end Gcad.LexicalPath
