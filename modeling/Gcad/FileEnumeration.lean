import Gcad.Common

/-!
# Enumerating the files of a scan

`enumerate_files` of deep_scanner.cpp and the loop over the roots of a scan.
The walk keeps a stack of directories and looks at the cancel flag before
every directory and every entry. It yields the eligible files of a tree in a
fixed order, cut off at the bound of the scan or where it is cancelled.
-/

namespace Gcad.FileEnumeration

open Common

/-- A path: the names from the root of a volume on. -/
abbrev Path := List Str

/-- What a directory entry is. A directory comes with the entries that its
iterator yields before it ends or fails. -/
inductive Node where
  /-- A symbolic link, with what it leads to. -/
  | link (target : Node)
  /-- A directory, or a junction: `is_symlink` is false for one, so that it is
  walked like the directory that it leads to. -/
  | directory (entries : List (Str×Node))
  /-- A regular file with its size, if that can be read. -/
  | file (size : Option ℕ)
  /-- Anything else, or an entry whose status cannot be read. -/
  | other

/-- The entries of a directory. -/
abbrev Entries := List (Str×Node)

mutual

/-- How many entries are to be walked in a node. -/
def nodeWeight : Node → ℕ
  | .directory entries => entriesWeight entries
  | _ => 0

/-- How many entries there are, the nested ones included, and one for the end
of every directory. -/
def entriesWeight : List (Str×Node) → ℕ
  | [] => 1
  | (_,node)::rest => 1+nodeWeight node+entriesWeight rest

end

/-- The largest file that is scanned. -/
def maxFileSize : ℕ := 256*1024*1024

/-- What the walk has done and has to do. -/
structure Progress where
  /-- The files found so far. -/
  out : List Path
  /-- The directories still to be listed with their entries, the next one first. -/
  stack : List (Path×Entries)
  /-- How often the cancel flag was read. -/
  polls : ℕ
  /-- The walk has returned before the stack was empty. -/
  stopped : Bool

/-- Whether a file of this size is scanned. -/
def scanned (size : Option ℕ) : Bool :=
  match size with
  | some size => size≠0 && decide (size ≤ maxFileSize)
  | none => false

/-- The body of the loop over the entries of a directory. -/
def enter (dir : Path) (name : Str) (node : Node) (p : Progress) : Progress :=
  match node with
  | .link _ => p
  | .directory entries => { p with stack := (dir++[name],entries)::p.stack }
  | .file size => if scanned size then { p with out := p.out++[dir++[name]] } else p
  | .other => p

section Walk

variable (maxFiles : ℕ) (cancelled : ℕ → Bool)

/-- `cancel_.load() || out.size() >= max_files`. -/
def halts (p : Progress) : Bool := cancelled p.polls || decide (maxFiles ≤ p.out.length)

/-- The loop over the entries of a directory. -/
def visit (dir : Path) : Entries → Progress → Progress
  | [],p => p
  | (name,node)::rest,p =>
    if halts maxFiles cancelled p then { p with polls := p.polls+1,stopped := true }
    else visit dir rest (enter dir name node { p with polls := p.polls+1 })

/-- How much there is to walk. -/
def weight (stack : List (Path×Entries)) : ℕ := (stack.map fun item => entriesWeight item.2).sum

/-- Visiting a directory leaves less to walk than it held. -/
theorem weight_visit (dir : Path) (entries : Entries) (p : Progress) :
    weight (visit maxFiles cancelled dir entries p).stack+1 ≤
      weight p.stack+entriesWeight entries := by
  induction entries generalizing p with
  | nil => simp [visit,entriesWeight]
  | cons entry rest ih =>
    obtain ⟨name,node⟩ := entry
    rw [visit,entriesWeight]
    split_ifs
    · dsimp only
      omega
    · refine (ih _).trans ?_
      cases node with
      | directory entries =>
        simp only [enter,weight,nodeWeight,List.map_cons,List.sum_cons]
        omega
      | file size => cases hsize : scanned size <;> simp [enter,hsize,nodeWeight]
      | _ => simp [enter,nodeWeight]

/-- The loop over the stack. -/
def walk (p : Progress) : Progress :=
  match _hstack : p.stack with
  | [] => p
  | (dir,entries)::stack =>
    if halts maxFiles cancelled p then { p with polls := p.polls+1,stopped := true }
    else
      let next := visit maxFiles cancelled dir entries
        { p with stack := stack,polls := p.polls+1 }
      if next.stopped then next else walk next
termination_by weight p.stack
decreasing_by
  have hweight := weight_visit maxFiles cancelled dir entries
    { p with stack := stack,polls := p.polls+1 }
  rw [_hstack]
  simp only [weight,List.map_cons,List.sum_cons] at hweight ⊢
  omega

/-- What `exists` and `is_regular_file` find at a root, links followed. -/
inductive Root where
  /-- Nothing, or something that cannot be read. -/
  | missing
  /-- A regular file. -/
  | file
  /-- Anything else, with the entries it is iterated to. -/
  | tree (entries : Entries)

/-- `enumerate_files`, with the number of times the flag was read before and
after. -/
def enumerateFiles (path : Path) (root : Root) (out : List Path) (polls : ℕ) : List Path×ℕ :=
  match root with
  | .missing => (out,polls)
  | .file => (out++[path],polls)
  | .tree entries =>
    if maxFiles ≤ out.length then (out,polls)
    else
      let p := walk maxFiles cancelled ⟨out,[(path,entries)],polls,false⟩
      (p.out,p.polls)

/-- The loop over the roots of a scan. -/
def enumerateRoots : List (Path×Root) → List Path → ℕ → List Path
  | [],out,_ => out
  | (path,root)::rest,out,polls =>
    if cancelled polls then out
    else
      let found := enumerateFiles maxFiles cancelled path root out (polls+1)
      enumerateRoots rest found.1 found.2

end Walk

/-- The eligible files directly in a directory, in its order. -/
def files (dir : Path) (entries : Entries) : List Path :=
  entries.filterMap fun entry =>
    match entry.2 with
    | .file size => if scanned size then some (dir++[entry.1]) else none
    | _ => none

/-- The directories directly in a directory, in its order. -/
def directories (dir : Path) (entries : Entries) : List (Path×Entries) :=
  entries.filterMap fun entry =>
    match entry.2 with
    | .directory inner => some (dir++[entry.1],inner)
    | _ => none

mutual

/-- The files that the walk finds under a node. -/
def nodeListing (path : Path) : Node → List Path
  | .directory entries => files path entries++below path entries
  | _ => []

/-- The files that the walk finds below the directories of a directory, the
last one first. -/
def below (dir : Path) : List (Str×Node) → List Path
  | [] => []
  | (name,node)::rest => below dir rest++nodeListing (dir++[name]) node

end

/-- The files that the walk finds in a directory. -/
def listing (dir : Path) (entries : Entries) : List Path := files dir entries++below dir entries

/-- The files of all directories of a stack. -/
def pending (stack : List (Path×Entries)) : List Path :=
  stack.flatMap fun item => listing item.1 item.2

/-- The files of a first directory. -/
theorem pending_cons (dir : Path) (entries : Entries) (stack : List (Path×Entries)) :
    pending ((dir,entries)::stack)=listing dir entries++pending stack := List.flatMap_cons

/-- The files of two stacks. -/
theorem pending_append (first second : List (Path×Entries)) :
    pending (first++second)=pending first++pending second := List.flatMap_append

/-- Directories wait in reverse order. -/
theorem below_eq (dir : Path) (entries : Entries) :
    below dir entries=pending (directories dir entries).reverse := by
  induction entries with
  | nil => simp [below,directories,pending]
  | cons entry rest ih =>
    obtain ⟨name,node⟩ := entry
    rw [below,ih]
    cases node with
    | directory inner =>
      have hcons : directories dir ((name,.directory inner)::rest)=
          (dir++[name],inner)::directories dir rest := rfl
      rw [hcons,List.reverse_cons,pending_append,pending_cons]
      simp [pending,listing,nodeListing]
    | _ => simp [directories,nodeListing]

/-- The files of a first entry. -/
theorem files_cons (dir : Path) (entry : Str×Node) (rest : Entries) :
    files dir (entry::rest)=files dir [entry]++files dir rest :=
  List.filterMap_append (l:=[entry]) ..

/-- The directories of a first entry. -/
theorem directories_cons (dir : Path) (entry : Str×Node) (rest : Entries) :
    directories dir (entry::rest)=directories dir [entry]++directories dir rest :=
  List.filterMap_append (l:=[entry]) ..

/-- What entering an entry changes. -/
theorem enter_eq (dir : Path) (name : Str) (node : Node) (p : Progress) (polls : ℕ) :
    (enter dir name node { p with polls := polls }).out=p.out++files dir [(name,node)] ∧
      (enter dir name node { p with polls := polls }).stack=
        directories dir [(name,node)]++p.stack ∧
      (enter dir name node { p with polls := polls }).stopped=p.stopped := by
  cases node with
  | file size => cases hsize : scanned size <;> simp [enter,files,directories,hsize]
  | _ => simp [enter,files,directories]

/-- An entry is one file at most. -/
theorem length_files_one (dir : Path) (entry : Str×Node) : (files dir [entry]).length ≤ 1 :=
  List.length_filterMap_le _ _

section Exact

variable {maxFiles : ℕ} {cancelled : ℕ → Bool}

/-- What the loop over a directory adds, and what it leaves. -/
structure Visited (maxFiles : ℕ) (cancelled : ℕ → Bool) (dir : Path) (entries : Entries)
    (p next : Progress) : Prop where
  /-- The files found so far stay. -/
  kept : p.out <+: next.out
  /-- The files found are a front of the eligible ones. -/
  front : next.out <+: p.out++files dir entries
  /-- The bound is not passed. -/
  bounded : next.out.length ≤ max maxFiles p.out.length
  /-- Unless it stops, nothing is missing and the directories wait. -/
  complete : next.stopped=false → next.out=p.out++files dir entries ∧
    next.stack=(directories dir entries).reverse++p.stack
  /-- It stops when it is cancelled or when there are enough files. -/
  stops : next.stopped=true → maxFiles ≤ next.out.length ∨ ∃ k,cancelled k=true

/-- The loop over a directory. -/
theorem visit_visited (dir : Path) (entries : Entries) (p : Progress) (h : p.stopped=false) :
    Visited maxFiles cancelled dir entries p (visit maxFiles cancelled dir entries p) := by
  induction entries generalizing p with
  | nil =>
    refine ⟨by simp [visit],by simp [visit,files],by simp [visit],
      fun _ => by simp [visit,files,directories],?_⟩
    intro hstopped
    rw [visit,h] at hstopped
    cases hstopped
  | cons entry rest ih =>
    obtain ⟨name,node⟩ := entry
    rw [visit]
    split_ifs with hhalts
    · refine ⟨List.prefix_rfl,List.prefix_append _ _,le_max_right _ _,nofun,fun _ => ?_⟩
      rw [halts,Bool.or_eq_true,decide_eq_true_eq] at hhalts
      exact hhalts.elim (fun hcancel => .inr ⟨_,hcancel⟩) .inl
    · rw [halts,Bool.or_eq_true,decide_eq_true_eq,not_or,not_le] at hhalts
      obtain ⟨hout,hstack,hstopped⟩ := enter_eq dir name node p (p.polls+1)
      have hrest := ih (enter dir name node { p with polls := p.polls+1 }) (hstopped.trans h)
      have hone := length_files_one dir (name,node)
      refine ⟨?_,?_,?_,fun hgoes => ?_,hrest.stops⟩
      · exact (hout ▸ List.prefix_append _ _).trans hrest.kept
      · rw [files_cons,← List.append_assoc]
        exact hout ▸ hrest.front
      · refine hrest.bounded.trans ?_
        rw [hout,List.length_append]
        omega
      · obtain ⟨hfiles,hwaiting⟩ := hrest.complete hgoes
        have hself : (directories dir [(name,node)]).reverse=directories dir [(name,node)] := by
          cases node <;> simp [directories]
        rw [hfiles,hwaiting,hout,hstack,files_cons dir (name,node) rest,
          directories_cons dir (name,node) rest,List.reverse_append,hself]
        exact ⟨List.append_assoc _ _ _,(List.append_assoc _ _ _).symm⟩

/-- What the loop over the stack yields. -/
structure Walked (maxFiles : ℕ) (cancelled : ℕ → Bool) (p next : Progress) : Prop where
  /-- The files found so far stay. -/
  kept : p.out <+: next.out
  /-- The files found are a front of the listings of the stack. -/
  front : next.out <+: p.out++pending p.stack
  /-- The bound is not passed. -/
  bounded : next.out.length ≤ max maxFiles p.out.length
  /-- Unless it stops, nothing is missing. -/
  complete : next.stopped=false → next.out=p.out++pending p.stack
  /-- It stops when it is cancelled or when there are enough files. -/
  stops : next.stopped=true → maxFiles ≤ next.out.length ∨ ∃ k,cancelled k=true

/-- The loop over the stack. -/
theorem walk_walked (p : Progress) (h : p.stopped=false) :
    Walked maxFiles cancelled p (walk maxFiles cancelled p) := by
  fun_induction walk maxFiles cancelled p with
  | case1 p hstack => 
    refine ⟨by simp,by simp,by simp,fun _ => by simp [hstack,pending],fun hs => ?_⟩
    rw [h] at hs
    cases hs
  | case2 p dir entries stack hstack hhalts =>
    refine ⟨List.prefix_rfl,List.prefix_append _ _,le_max_right _ _,nofun,fun _ => ?_⟩
    rw [halts,Bool.or_eq_true,decide_eq_true_eq] at hhalts
    exact hhalts.elim (fun hcancel => .inr ⟨_,hcancel⟩) .inl
  | case3 p dir entries stack hstack hhalts next hstopped =>
    have visited : Visited maxFiles cancelled dir entries { p with stack := stack,polls := p.polls+1 }
        next := visit_visited dir entries _ h
    refine ⟨visited.kept,visited.front.trans ?_,visited.bounded,fun hgoes => ?_,visited.stops⟩
    · rw [hstack,pending_cons,listing,← List.append_assoc,← List.append_assoc,List.append_assoc]
      exact List.prefix_append _ _
    · rw [hstopped] at hgoes
      cases hgoes
  | case4 p dir entries stack hstack hhalts next hgoes ih =>
    have visited : Visited maxFiles cancelled dir entries { p with stack := stack,polls := p.polls+1 }
        next := visit_visited dir entries _ h
    have hgoes : next.stopped=false := by simpa using hgoes
    obtain ⟨hout,hrest⟩ := visited.complete hgoes
    have hpending : next.out++pending next.stack=p.out++pending p.stack := by
      rw [hout,hrest,hstack,pending_append,pending_cons,listing,below_eq]
      simp only [List.append_assoc]
    have walked := ih hgoes
    rw [halts,Bool.or_eq_true,decide_eq_true_eq,not_or,not_le] at hhalts
    refine ⟨visited.kept.trans walked.kept,hpending ▸ walked.front,?_,fun hend => ?_,
      walked.stops⟩
    · have hbound := visited.bounded
      have hnext := walked.bounded
      dsimp only at hbound
      omega
    · rw [walked.complete hend,hpending]

end Exact

/-- A file that a scan is to look at: a regular file of an accepted size that
is reached from a directory through directories alone. -/
inductive Eligible : Path → Entries → Path → Prop
  /-- A file in the directory. -/
  | file {dir : Path} {entries : Entries} {name : Str} {size : Option ℕ}
    (mem : (name,.file size) ∈ entries) (accepted : scanned size=true) :
    Eligible dir entries (dir++[name])
  /-- A file below one of its directories. -/
  | inside {dir path : Path} {entries inner : Entries} {name : Str}
    (mem : (name,.directory inner) ∈ entries) (eligible : Eligible (dir++[name]) inner path) :
    Eligible dir entries path

/-- No directory holds a name twice. -/
inductive Named : Entries → Prop
  /-- The directory and those in it. -/
  | intro {entries : Entries} (nodup : (entries.map Prod.fst).Nodup)
    (inner : ∀ name inner,(name,.directory inner) ∈ entries → Named inner) : Named entries

/-- The files directly in a directory. -/
theorem mem_files {dir path : Path} {entries : Entries} :
    path ∈ files dir entries ↔
      ∃ name size,(name,.file size) ∈ entries ∧ scanned size=true ∧ dir++[name]=path := by
  rw [files,List.mem_filterMap]
  constructor
  · rintro ⟨⟨name,node⟩,hmem,hpath⟩
    cases node with
    | file size =>
      cases hsize : scanned size with
      | true =>
        simp only [hsize,if_true,Option.some.injEq] at hpath
        exact ⟨name,size,hmem,hsize,hpath⟩
      | false => simp [hsize] at hpath
    | _ => simp at hpath
  · rintro ⟨name,size,hmem,hsize,hpath⟩
    exact ⟨(name,.file size),hmem,by simp [hsize,hpath]⟩

/-- The directories directly in a directory. -/
theorem mem_directories {dir path : Path} {entries inner : Entries} :
    (path,inner) ∈ directories dir entries ↔
      ∃ name,(name,.directory inner) ∈ entries ∧ dir++[name]=path := by
  rw [directories,List.mem_filterMap]
  constructor
  · rintro ⟨⟨name,node⟩,hmem,hpath⟩
    cases node with
    | directory entries' =>
      simp only [Option.some.injEq,Prod.mk.injEq] at hpath
      obtain ⟨hpath,rfl⟩ := hpath
      exact ⟨name,hmem,hpath⟩
    | _ => simp at hpath
  · rintro ⟨name,hmem,hpath⟩
    exact ⟨(name,.directory inner),hmem,by simp [hpath]⟩

/-- A file of a listing is directly in the directory or below one of its
directories. -/
theorem mem_listing {dir path : Path} {entries : Entries} :
    path ∈ listing dir entries ↔ path ∈ files dir entries ∨
      ∃ name inner,(name,.directory inner) ∈ entries ∧ path ∈ listing (dir++[name]) inner := by
  rw [listing,List.mem_append,below_eq,pending,List.mem_flatMap]
  refine or_congr_right ⟨?_,?_⟩
  · rintro ⟨⟨child,inner⟩,hmem,hpath⟩
    obtain ⟨name,hname,rfl⟩ := mem_directories.mp (List.mem_reverse.mp hmem)
    exact ⟨name,inner,hname,hpath⟩
  · rintro ⟨name,inner,hname,hpath⟩
    exact ⟨(dir++[name],inner),List.mem_reverse.mpr (mem_directories.mpr ⟨name,hname,rfl⟩),hpath⟩

/-- A directory weighs less than the one that holds it. -/
theorem weight_directory {name : Str} {entries inner : Entries}
    (h : (name,.directory inner) ∈ entries) : entriesWeight inner < entriesWeight entries := by
  induction entries with
  | nil => cases h
  | cons entry rest ih =>
    rcases List.mem_cons.mp h with rfl | hrest
    · rw [entriesWeight,nodeWeight]
      omega
    · have hless := ih hrest
      obtain ⟨other,node⟩ := entry
      rw [entriesWeight]
      omega

/-- The listing holds exactly the eligible files. -/
theorem mem_listing_iff (dir path : Path) (entries : Entries) :
    path ∈ listing dir entries ↔ Eligible dir entries path := by
  induction h : entriesWeight entries using Nat.strong_induction_on generalizing dir entries with
  | h weight ih =>
    rw [mem_listing]
    constructor
    · rintro (hfile | ⟨name,inner,hname,hpath⟩)
      · obtain ⟨name,size,hmem,hsize,rfl⟩ := mem_files.mp hfile
        exact .file hmem hsize
      · exact .inside hname ((ih _ (h ▸ weight_directory hname) _ _ rfl).mp hpath)
    · rintro (⟨hmem,hsize⟩ | ⟨hname,hpath⟩)
      · exact .inl (mem_files.mpr ⟨_,_,hmem,hsize,rfl⟩)
      · exact .inr ⟨_,_,hname,(ih _ (h ▸ weight_directory hname) _ _ rfl).mpr hpath⟩

/-- The directory of a listing is in front of all its paths. -/
theorem eligible_path {dir path : Path} {entries : Entries} (h : Eligible dir entries path) :
    ∃ name rest,path=dir++name::rest ∧ name ∈ entries.map Prod.fst := by
  induction h with
  | @file dir entries name size hmem hsize =>
    exact ⟨name,[],rfl,List.mem_map.mpr ⟨_,hmem,rfl⟩⟩
  | @inside dir path entries inner name hmem eligible ih =>
    obtain ⟨first,rest,rfl,-⟩ := ih
    exact ⟨name,first::rest,by simp,List.mem_map.mpr ⟨_,hmem,rfl⟩⟩

/-- The listing of a first entry can be taken apart. -/
theorem listing_cons_perm (dir : Path) (entry : Str×Node) (rest : Entries) :
    (listing dir (entry::rest)).Perm (listing dir [entry]++listing dir rest) := by
  have hbelow : below dir (entry::rest)=below dir rest++below dir [entry] := by
    obtain ⟨name,node⟩ := entry
    simp [below]
  rw [listing,listing,listing,files_cons,hbelow,List.append_assoc,List.append_assoc]
  refine List.Perm.append_left _ ?_
  rw [← List.append_assoc]
  exact List.perm_append_comm

/-- The listing of one entry has no path twice. -/
theorem nodup_listing_one {dir : Path} {name : Str} {node : Node}
    (inner : ∀ inner,node=.directory inner → (listing (dir++[name]) inner).Nodup) :
    (listing dir [(name,node)]).Nodup := by
  cases node with
  | directory entries =>
    have hone : listing dir [(name,.directory entries)]=listing (dir++[name]) entries := by
      simp [listing,files,below,nodeListing]
    exact hone ▸ inner entries rfl
  | file size => cases hsize : scanned size <;> simp [listing,files,below,nodeListing,hsize]
  | _ => simp [listing,files,below,nodeListing]

/-- Where no name comes twice, no file is listed twice. -/
theorem nodup_listing {entries : Entries} (named : Named entries) (dir : Path) :
    (listing dir entries).Nodup := by
  induction named generalizing dir with
  | @intro entries nodup inner ih =>
    have hinner : ∀ name node,(name,node) ∈ entries → (listing dir [(name,node)]).Nodup := by
      intro name node hmem
      refine nodup_listing_one fun inside heq => ?_
      subst heq
      exact ih name inside hmem (dir++[name])
    clear inner ih
    induction entries with
    | nil => simp [listing,files,below]
    | cons entry rest ihrest =>
      obtain ⟨name,node⟩ := entry
      rw [List.map_cons,List.nodup_cons] at nodup
      have hfirst := hinner name node List.mem_cons_self
      have hrest := ihrest nodup.2 fun other node hmem =>
        hinner other node (List.mem_cons_of_mem _ hmem)
      refine (listing_cons_perm dir (name,node) rest).nodup_iff.mpr (hfirst.append hrest ?_)
      intro path hone hothers
      obtain ⟨first,_,rfl,hname⟩ := eligible_path ((mem_listing_iff dir path _).mp hone)
      obtain ⟨second,_,heq,hother⟩ := eligible_path ((mem_listing_iff dir _ _).mp hothers)
      obtain ⟨rfl,-⟩ := List.cons.inj (List.append_cancel_left heq)
      rw [List.map_singleton,List.mem_singleton] at hname
      exact nodup.1 (hname ▸ hother)

/-- The files that the walk finds at a root. -/
def rootListing (path : Path) : Root → List Path
  | .missing => []
  | .file => [path]
  | .tree entries => listing path entries

/-- Whether a root is a file. -/
def isFile : Root → Bool
  | .file => true
  | _ => false

section Roots

variable {maxFiles : ℕ} {cancelled : ℕ → Bool}

/-- What the walk of some roots adds to the files found so far. -/
structure Gathered (maxFiles : ℕ) (cancelled : ℕ → Bool) (roots : List (Path×Root))
    (out found : List Path) : Prop where
  /-- The files found so far stay. -/
  kept : out <+: found
  /-- The others are in the listings of the roots, in their order. -/
  sublist : found.Sublist (out++roots.flatMap fun root => rootListing root.1 root.2)
  /-- The bound is passed only by roots that are files. -/
  bounded : found.length ≤ max maxFiles out.length+roots.countP fun root => isFile root.2
  /-- Below the bound nothing is missing. -/
  complete : (∀ k,cancelled k=false) → found.length < maxFiles →
    found=out++roots.flatMap fun root => rootListing root.1 root.2

/-- One root. -/
theorem enumerateFiles_gathered (path : Path) (root : Root) (out : List Path) (polls : ℕ) :
    Gathered maxFiles cancelled [(path,root)] out
      (enumerateFiles maxFiles cancelled path root out polls).1 := by
  cases root with
  | missing => exact ⟨by simp [enumerateFiles],by simp [enumerateFiles],
      le_add_right (le_max_right _ _),fun _ _ => by simp [enumerateFiles,rootListing]⟩
  | file => exact ⟨by simp [enumerateFiles],by simp [enumerateFiles,rootListing],
      by simp [enumerateFiles,isFile],fun _ _ => by simp [enumerateFiles,rootListing]⟩
  | tree entries =>
    rw [enumerateFiles]
    split_ifs with hfull
    · refine ⟨List.prefix_rfl,List.sublist_append_left _ _,le_add_right (le_max_right _ _),
        fun _ hroom => ?_⟩
      exact absurd hroom (not_lt.mpr hfull)
    · have walked : Walked maxFiles cancelled ⟨out,[(path,entries)],polls,false⟩
          (walk maxFiles cancelled ⟨out,[(path,entries)],polls,false⟩) := walk_walked _ rfl
      have hone : pending [(path,entries)]=listing path entries := by simp [pending]
      have hfront := walked.front
      rw [hone] at hfront
      refine ⟨walked.kept,?_,le_add_right walked.bounded,fun hgoes hroom => ?_⟩
      · simpa [rootListing] using hfront.sublist
      · cases hstopped : (walk maxFiles cancelled ⟨out,[(path,entries)],polls,false⟩).stopped with
        | false => simpa [rootListing,hone] using walked.complete hstopped
        | true =>
          rcases walked.stops hstopped with hfull | ⟨k,hcancel⟩
          · exact absurd hroom (not_lt.mpr hfull)
          · rw [hgoes k] at hcancel
            cases hcancel

/-- All roots. -/
theorem enumerateRoots_gathered (roots : List (Path×Root)) (out : List Path) (polls : ℕ) :
    Gathered maxFiles cancelled roots out
      (enumerateRoots maxFiles cancelled roots out polls) := by
  induction roots generalizing out polls with
  | nil => exact ⟨by simp [enumerateRoots],by simp [enumerateRoots],by simp [enumerateRoots],
      fun _ _ => by simp [enumerateRoots]⟩
  | cons root rest ih =>
    obtain ⟨path,root⟩ := root
    rw [enumerateRoots]
    split_ifs with hcancel
    · refine ⟨List.prefix_rfl,List.sublist_append_left _ _,by omega,fun hgoes => ?_⟩
      rw [hgoes polls] at hcancel
      cases hcancel
    · have hone : Gathered maxFiles cancelled [(path,root)] out
          (enumerateFiles maxFiles cancelled path root out (polls+1)).1 :=
        enumerateFiles_gathered path root out (polls+1)
      have hrest := ih (enumerateFiles maxFiles cancelled path root out (polls+1)).1
        (enumerateFiles maxFiles cancelled path root out (polls+1)).2
      have hcons : (out++[(path,root)].flatMap fun root => rootListing root.1 root.2)++
          (rest.flatMap fun root => rootListing root.1 root.2)=
          out++((path,root)::rest).flatMap fun root => rootListing root.1 root.2 := by simp
      refine ⟨hone.kept.trans hrest.kept,?_,?_,fun hgoes hroom => ?_⟩
      · rw [← hcons]
        exact hrest.sublist.trans (hone.sublist.append_right _)
      · have hfirst := hone.bounded
        have hothers := hrest.bounded
        rw [List.countP_cons]
        rw [List.countP_singleton] at hfirst
        dsimp only at hfirst hothers ⊢
        omega
      · have hless := lt_of_le_of_lt hrest.kept.length_le hroom
        rw [← hcons,← hone.complete hgoes hless]
        exact hrest.complete hgoes hroom

end Roots

/-- Two roots neither of which is in front of the other. -/
def Apart (first second : Path×Root) : Prop := ¬first.1 <+: second.1 ∧ ¬second.1 <+: first.1

/-- A file that a scan of some roots is to look at. -/
def Wanted (roots : List (Path×Root)) (path : Path) : Prop :=
  ∃ root ∈ roots,match root.2 with
    | .missing => False
    | .file => path=root.1
    | .tree entries => Eligible root.1 entries path

/-- The listings of the roots hold exactly the wanted files. -/
theorem mem_roots_iff (roots : List (Path×Root)) (path : Path) :
    path ∈ roots.flatMap (fun root => rootListing root.1 root.2) ↔ Wanted roots path := by
  rw [List.mem_flatMap,Wanted]
  refine exists_congr fun root => and_congr_right fun _ => ?_
  obtain ⟨dir,root⟩ := root
  cases root with
  | missing => simp [rootListing]
  | file => simp [rootListing]
  | tree entries => exact mem_listing_iff dir path entries

/-- What is found at a root has the root in front. -/
theorem prefix_of_mem_rootListing {dir path : Path} {root : Root}
    (h : path ∈ rootListing dir root) : dir <+: path := by
  cases root with
  | missing => cases h
  | file => exact List.mem_singleton.mp h ▸ List.prefix_rfl
  | tree entries =>
    obtain ⟨name,rest,rfl,-⟩ := eligible_path ((mem_listing_iff dir path entries).mp h)
    exact List.prefix_append dir (name::rest)

/-- Roots that are apart, with names that come once in a directory, list no
file twice. -/
theorem nodup_roots {roots : List (Path×Root)} (apart : roots.Pairwise Apart)
    (named : ∀ path entries,(path,.tree entries) ∈ roots → Named entries) :
    (roots.flatMap fun root => rootListing root.1 root.2).Nodup := by
  refine List.nodup_flatMap.mpr ⟨?_,?_⟩
  · rintro ⟨dir,root⟩ hroot
    cases root with
    | missing => exact List.nodup_nil
    | file => exact List.nodup_singleton dir
    | tree entries => exact nodup_listing (named dir entries hroot) dir
  · refine apart.imp fun {first second} hapart => ?_
    intro path hfirst hsecond
    rcases List.prefix_or_prefix_of_prefix (prefix_of_mem_rootListing hfirst)
      (prefix_of_mem_rootListing hsecond) with h | h
    · exact hapart.1 h
    · exact hapart.2 h

/-- What a scan enumerates, for any roots and any moment of a cancel: files
that are wanted, at most as many as the bound and one for every root that is a
file, and all wanted files where it is not cancelled and stays below the
bound. Symbolic links are never followed, wherever they lead: nothing behind
one is wanted. Where roots are apart and names come once in a directory, no
file is enumerated twice. -/
theorem scan_enumerates_wanted (maxFiles : ℕ) (cancelled : ℕ → Bool)
    (roots : List (Path×Root)) (polls : ℕ) :
    let found := enumerateRoots maxFiles cancelled roots [] polls
    (∀ path ∈ found,Wanted roots path) ∧
      found.length ≤ maxFiles+roots.countP (fun root => isFile root.2) ∧
      ((∀ k,cancelled k=false) → found.length < maxFiles →
        ∀ path,Wanted roots path → path ∈ found) ∧
      (roots.Pairwise Apart → (∀ path entries,(path,.tree entries) ∈ roots → Named entries) →
        found.Nodup) := by
  intro found
  have gathered : Gathered maxFiles cancelled roots [] found :=
    enumerateRoots_gathered roots [] polls
  have hsublist := gathered.sublist
  rw [List.nil_append] at hsublist
  refine ⟨fun path hpath => ?_,by simpa using gathered.bounded,fun hgoes hroom path hwanted => ?_,
    fun apart named => (nodup_roots apart named).sublist hsublist⟩
  · exact (mem_roots_iff roots path).mp (hsublist.mem hpath)
  · rw [gathered.complete hgoes hroom,List.nil_append]
    exact (mem_roots_iff roots path).mpr hwanted

/-- A directory with a program, an empty file, a directory and a link out of
it, and a file of its own. -/
def sampleRoots : List (Path×Root) :=
  [(["C".toList],.tree [("run.exe".toList,.file (some 4096)),("empty".toList,.file (some 0)),
      ("docs".toList,.directory [("note.txt".toList,.file (some 12))]),
      ("out".toList,.link (.directory [("far.txt".toList,.file (some 12))]))]),
    (["D".toList,"one.dll".toList],.file)]

/-- What the walk of the sample yields. -/
theorem sampleRoots_found : enumerateRoots 10 (fun _ => false) sampleRoots [] 0=
    [["C".toList,"run.exe".toList],["C".toList,"docs".toList,"note.txt".toList],
      ["D".toList,"one.dll".toList]] := by
  simp [enumerateRoots,sampleRoots,enumerateFiles,walk,halts,visit,enter,scanned,maxFileSize]

/-- No directory of the sample holds a name twice. -/
theorem sampleRoots_named (path : Path) (entries : Entries)
    (h : (path,.tree entries) ∈ sampleRoots) : Named entries := by
  simp only [sampleRoots,List.mem_cons,Prod.mk.injEq,reduceCtorEq,and_false,List.not_mem_nil,
    or_false,Root.tree.injEq] at h
  obtain ⟨-,rfl⟩ := h
  refine .intro (by decide) fun name inner hmem => ?_
  simp only [List.mem_cons,Prod.mk.injEq,reduceCtorEq,and_false,List.not_mem_nil,or_false,
    false_or,Node.directory.injEq] at hmem
  obtain ⟨-,rfl⟩ := hmem
  refine .intro (by decide) fun name inner hmem => ?_
  simp at hmem

/-- The sample is enumerated without a gap and without a file twice, and
without the file behind the link. -/
theorem sample_enumerated :
    (∀ path,Wanted sampleRoots path ↔
      path=["C".toList,"run.exe".toList] ∨ path=["C".toList,"docs".toList,"note.txt".toList] ∨
        path=["D".toList,"one.dll".toList]) ∧
      (enumerateRoots 10 (fun _ => false) sampleRoots [] 0).Nodup := by
  obtain ⟨hwanted,-,hall,hnodup⟩ := scan_enumerates_wanted 10 (fun _ => false) sampleRoots 0
  have hfew : (enumerateRoots 10 (fun _ => false) sampleRoots [] 0).length < 10 := by
    rw [sampleRoots_found]
    decide
  have hfound := hall (fun _ => rfl) hfew
  rw [sampleRoots_found] at hwanted hfound
  refine ⟨fun path => ?_,hnodup (by simp [sampleRoots,Apart]) sampleRoots_named⟩
  have hiff : Wanted sampleRoots path ↔ path ∈ _ := ⟨hfound path,hwanted path⟩
  simpa using hiff

end Gcad.FileEnumeration
