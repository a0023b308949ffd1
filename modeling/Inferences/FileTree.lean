import Inferences.Json
import Mathlib

/-!
# File trees

A tree of regular files, directories and symbolic links. A link stands with
the node it leads to, which is no part of the tree. Paths are lists of plain
names. `find` is what a path names, links on the way followed; `alter` puts
something else in its place, and makes the parents that are missing when asked
to.

Nothing but the path altered is different afterwards: for a path below the
entry `name` of a directory, the directory is as before but for that entry
(`alter_cons_dir`).
-/

namespace Inferences

/-- The names from the root down. -/
abbrev Path := List String

/-- What a name of a directory stands for. A `dead_link` leads to nothing; an
    `other` is a device, a socket or a pipe. The entries are in the order a
    listing of the directory has them. -/
inductive Node
  | file (content : Bytes)
  | dir (entries : List (String × Node))
  | link (target : Node)
  | dead_link
  | other

namespace Node

/-- The node with all links followed. -/
def follow : Node → Option Node
  | link target => target.follow
  | dead_link => none
  | node => some node

/-- The entries of a directory with `name` standing for `node`, or for nothing. -/
def put (entries : List (String × Node)) (name : String) : Option Node → List (String × Node)
  | none => entries.filter (·.1 ≠ name)
  | some node => entries.filter (·.1 ≠ name) ++ [(name, node)]

/-- What `name` stands for in the directory. -/
def entry (name : String) : Node → Option Node
  | dir entries => entries.lookup name
  | link target => target.entry name
  | _ => none

/-- The directory after a change of what `name` stands for. -/
def update (name : String) (change : Option Node → Option (Option Node)) : Node → Option Node
  | dir entries => (change (entries.lookup name)).map fun node => dir (put entries name node)
  | link target => (target.update name change).map link
  | _ => none

/-- The name stands for what was put there. -/
@[simp] theorem lookup_put_self (entries : List (String × Node)) (name : String)
    (node : Option Node) : (put entries name node).lookup name = node := by
  cases node with
  | none => exact lookup_filter_self entries name
  | some node =>
    rw [put, List.lookup_append, lookup_filter_self]
    simp

/-- The other names stand for what they did. -/
theorem lookup_put_ne (entries : List (String × Node)) {name other : String} (h : other ≠ name)
    (node : Option Node) : (put entries name node).lookup other = entries.lookup other := by
  cases node with
  | none => exact lookup_filter_ne entries h
  | some node =>
    rw [put, List.lookup_append, lookup_filter_ne entries h]
    simp [List.lookup_cons, beq_false_of_ne h]

/-- The later of two nodes of one name is the one that stays. -/
theorem put_put (entries : List (String × Node)) (name : String) (node node' : Option Node) :
    put (put entries name node) name node' = put entries name node' := by
  have hfilter : (put entries name node).filter (·.1 ≠ name) = entries.filter (·.1 ≠ name) := by
    cases node <;> simp [put]
  cases node' <;> simp only [put] at * <;> rw [hfilter]

/-- What the path names, the link at its end not followed. -/
def find : Path → Option Node → Option Node
  | [], node => node
  | name :: path, node => find path (node.bind (entry name))

/-- The tree after a change of what the path names. -/
def alter (parents : Bool) (change : Option Node → Option (Option Node)) :
    Path → Option Node → Option (Option Node)
  | [], node => change node
  | name :: path, some node => (node.update name (alter parents change path)).map some
  | name :: path, none =>
    if parents then ((dir []).update name (alter parents change path)).map some else none

@[simp] theorem find_nil (node : Option Node) : find [] node = node := rfl

@[simp] theorem find_cons_dir (name : String) (path : Path) (entries : List (String × Node)) :
    find (name :: path) (some (dir entries)) = find path (entries.lookup name) := rfl

/-- A path in two parts. -/
theorem find_append (path path' : Path) (node : Option Node) :
    find (path ++ path') node = find path' (find path node) := by
  induction path generalizing node with
  | nil => rfl
  | cons name path ih => exact ih _

@[simp] theorem find_none (path : Path) : find path none = none := by
  induction path with
  | nil => rfl
  | cons name path ih => exact ih

@[simp] theorem alter_nil (parents : Bool) (change : Option Node → Option (Option Node))
    (node : Option Node) : alter parents change [] node = change node := rfl

/-- A change below an entry of a directory is a change of that entry. -/
theorem alter_cons_dir (parents : Bool) (change : Option Node → Option (Option Node))
    (name : String) (path : Path) (entries : List (String × Node)) :
    alter parents change (name :: path) (some (dir entries)) =
      (alter parents change path (entries.lookup name)).map fun node =>
        some (dir (put entries name node)) := by
  simp only [alter, update, Option.map_map]
  rfl

/-- The entry is changed as told. -/
theorem entry_update {name : String} {change : Option Node → Option (Option Node)} :
    (node : Node) → {node' : Node} → node.update name change = some node' →
      change (node.entry name) = some (node'.entry name)
  | dir entries, node', h => by
    obtain ⟨changed, hchange, rfl⟩ := Option.map_eq_some_iff.1 h
    rw [entry, entry, lookup_put_self, hchange]
  | link target, node', h => by
    obtain ⟨target', htarget, rfl⟩ := Option.map_eq_some_iff.1 h
    have hentry := entry_update target htarget
    exact hentry
  | file _, _, h | dead_link, _, h | other, _, h => by cases h

/-- The other entries of the directory are as they were. -/
theorem entry_update_ne {name name' : String} (hne : name' ≠ name)
    {change : Option Node → Option (Option Node)} :
    (node : Node) → {node' : Node} → node.update name change = some node' →
      node'.entry name' = node.entry name'
  | dir entries, node', h => by
    obtain ⟨changed, -, rfl⟩ := Option.map_eq_some_iff.1 h
    exact lookup_put_ne entries hne changed
  | link target, node', h => by
    obtain ⟨target', htarget, rfl⟩ := Option.map_eq_some_iff.1 h
    have hentry := entry_update_ne hne target htarget
    exact hentry
  | file _, _, h | dead_link, _, h | other, _, h => by cases h

/-- A change below one name is nothing to the others. -/
theorem find_alter_ne {parents : Bool} {change : Option Node → Option (Option Node)}
    {name name' : String} (hne : name' ≠ name) {path : Path} {node node' : Option Node}
    (h : alter parents change (name :: path) node = some node') :
    find [name'] node' = find [name'] node := by
  cases node with
  | some node =>
    obtain ⟨below, hbelow, rfl⟩ := Option.map_eq_some_iff.1 h
    exact entry_update_ne hne node hbelow
  | none =>
    rw [alter] at h
    split at h
    · obtain ⟨below, hbelow, rfl⟩ := Option.map_eq_some_iff.1 h
      exact entry_update_ne hne (dir []) hbelow
    · cases h

/-- A change below a path is a change of what the path names. -/
theorem find_alter {parents : Bool} {change : Option Node → Option (Option Node)}
    {path path' : Path} {node node' : Option Node}
    (h : alter parents change (path ++ path') node = some node') :
    alter parents change path' (find path node) = some (find path node') := by
  induction path generalizing node node' with
  | nil => exact h
  | cons name path ih =>
    have hupdate : ∃ below below' : Node, node' = some below' ∧
        below.update name (alter parents change (path ++ path')) = some below' ∧
        node.bind (entry name) = below.entry name := by
      cases node with
      | some node =>
        obtain ⟨below', hbelow, rfl⟩ := Option.map_eq_some_iff.1 h
        exact ⟨node, below', rfl, hbelow, rfl⟩
      | none =>
        rw [List.cons_append, alter] at h
        split at h
        · obtain ⟨below', hbelow, rfl⟩ := Option.map_eq_some_iff.1 h
          exact ⟨dir [], below', rfl, hbelow, rfl⟩
        · cases h
    obtain ⟨below, below', rfl, hbelow, hentry⟩ := hupdate
    rw [find, find, hentry]
    exact ih (entry_update below hbelow)

/-- What the path names is changed as told. -/
theorem find_alter_self {parents : Bool} {change : Option Node → Option (Option Node)}
    {path : Path} {node node' : Option Node} (h : alter parents change path node = some node') :
    change (find path node) = some (find path node') := by
  rw [← path.append_nil] at h
  exact find_alter h

/-- Two changes of one entry are one change. -/
theorem update_again {name : String} {first second both : Option Node → Option (Option Node)}
    (h : ∀ before after, first before = some after → second after = both before) :
    (node : Node) → {node' : Node} → node.update name first = some node' →
      node'.update name second = node.update name both
  | dir entries, node', hupdate => by
    obtain ⟨changed, hchanged, rfl⟩ := Option.map_eq_some_iff.1 hupdate
    simp only [update, lookup_put_self, h _ _ hchanged, put_put]
  | link target, node', hupdate => by
    obtain ⟨target', htarget, rfl⟩ := Option.map_eq_some_iff.1 hupdate
    rw [update, update_again h target htarget, update]
  | file _, _, hupdate | dead_link, _, hupdate | other, _, hupdate => by cases hupdate

/-- Two changes of one path, one after the other, are one change. -/
theorem alter_again {parents : Bool} {first second both : Option Node → Option (Option Node)}
    (h : ∀ before after, first before = some after → second after = both before) {path : Path}
    {node node' : Option Node} (halter : alter parents first path node = some node') :
    alter parents second path node' = alter parents both path node := by
  induction path generalizing node node' with
  | nil => exact h _ _ halter
  | cons name path ih =>
    cases node with
    | some node =>
      obtain ⟨below, hbelow, rfl⟩ := Option.map_eq_some_iff.1 halter
      exact congrArg (Option.map some) (update_again (fun _ _ => ih) node hbelow)
    | none =>
      cases parents with
      | false => cases halter
      | true =>
        obtain ⟨below, hbelow, rfl⟩ := Option.map_eq_some_iff.1 halter
        exact congrArg (Option.map some) (update_again (fun _ _ => ih) _ hbelow)

theorem update_isSome {name : String} {change change' : Option Node → Option (Option Node)}
    (h : ∀ node, (change node).isSome = (change' node).isSome) :
    (node : Node) → (node.update name change).isSome = (node.update name change').isSome
  | dir entries => by simp only [update, Option.isSome_map, h]
  | link target => by simp only [update, Option.isSome_map, update_isSome h target]
  | file _ | dead_link | other => rfl

/-- Whether a path can be changed depends on what the change can do there. -/
theorem alter_isSome {parents : Bool} {change change' : Option Node → Option (Option Node)}
    (h : ∀ node, (change node).isSome = (change' node).isSome) (path : Path)
    (node : Option Node) :
    (alter parents change path node).isSome = (alter parents change' path node).isSome := by
  induction path generalizing node with
  | nil => exact h node
  | cons name path ih =>
    cases node with
    | some node => simp only [alter, Option.isSome_map, update_isSome ih]
    | none => cases parents <;> simp [alter, update_isSome ih]

/-- What is neither on the way to the path nor below it stays as it is. -/
theorem find_alter_apart {parents : Bool} {change : Option Node → Option (Option Node)}
    {path other : Path} {node node' : Option Node} (hpath : ¬ path <+: other)
    (hother : ¬ other <+: path) (h : alter parents change path node = some node') :
    find other node' = find other node := by
  induction path generalizing other node node' with
  | nil => exact absurd List.nil_prefix hpath
  | cons name path ih =>
    cases other with
    | nil => exact absurd List.nil_prefix hother
    | cons name' other =>
      by_cases hname : name' = name
      · subst hname
        change find other (find [name'] node') = find other (find [name'] node)
        have hbelow : alter parents change path (find [name'] node) = some (find [name'] node') :=
          find_alter h
        exact ih (fun hp => hpath (List.cons_prefix_cons.2 ⟨rfl, hp⟩))
          (fun ho => hother (List.cons_prefix_cons.2 ⟨rfl, ho⟩)) hbelow
      · exact congrArg (find other) (find_alter_ne hname h)

/-! ## Plain trees -/

/-- A tree of files and directories, with one entry for a name. -/
inductive Plain : Node → Prop
  | file (content : Bytes) : Plain (file content)
  | dir {entries : List (String × Node)} (hnodup : (entries.map Prod.fst).Nodup)
      (hentries : ∀ name node, entries.lookup name = some node → Plain node) : Plain (dir entries)

/-- No symbolic link and no special file occurs in the tree, at any depth. -/
inductive Regular : Node → Prop
  | file (content : Bytes) : Regular (file content)
  | dir {entries : List (String × Node)} (h : ∀ entry ∈ entries, Regular entry.2) :
      Regular (dir entries)

/-- Every directory of the tree has one entry for a name. -/
inductive Distinct : Node → Prop
  | file (content : Bytes) : Distinct (file content)
  | dir {entries : List (String × Node)} (hnodup : (entries.map Prod.fst).Nodup)
      (h : ∀ entry ∈ entries, Distinct entry.2) : Distinct (dir entries)
  | link (target : Node) : Distinct (link target)
  | dead_link : Distinct dead_link
  | other : Distinct other

/-- The content of the file that the path names. -/
def content (node : Option Node) (path : Path) : Option Bytes :=
  match find path node with
  | some (file content) => some content
  | _ => none

/-- No name comes twice. -/
theorem nodup_put {entries : List (String × Node)} (h : (entries.map Prod.fst).Nodup)
    (name : String) (node : Option Node) : ((put entries name node).map Prod.fst).Nodup := by
  have hfilter : ((entries.filter (·.1 ≠ name)).map Prod.fst).Nodup :=
    h.sublist (List.Sublist.map _ List.filter_sublist)
  cases node with
  | none => exact hfilter
  | some node =>
    rw [put, List.map_append, List.nodup_append]
    refine ⟨hfilter, by simp, fun a ha b hb => ?_⟩
    obtain ⟨entry, hentry, rfl⟩ := List.mem_map.1 ha
    obtain rfl := List.mem_singleton.1 hb
    simpa using (List.mem_filter.1 hentry).2

theorem plain_put {entries : List (String × Node)} (h : Plain (dir entries)) (name : String)
    {node : Option Node} (hnode : ∀ n, node = some n → Plain n) :
    Plain (dir (put entries name node)) := by
  cases h with
  | dir hnodup hentries =>
    refine .dir (nodup_put hnodup name node) fun other below hbelow => ?_
    by_cases hother : other = name
    · subst hother
      rw [lookup_put_self] at hbelow
      exact hnode below hbelow
    · rw [lookup_put_ne _ hother] at hbelow
      exact hentries other below hbelow

/-- Where no name comes twice, an entry is what its name stands for. -/
theorem lookup_of_mem {entries : List (String × Node)} (h : (entries.map Prod.fst).Nodup)
    {name : String} {node : Node} (hmem : (name, node) ∈ entries) :
    entries.lookup name = some node := by
  induction entries with
  | nil => cases hmem
  | cons entry entries ih =>
    obtain ⟨hname, hnodup⟩ := List.nodup_cons.1 h
    rcases List.mem_cons.1 hmem with rfl | hmem
    · exact List.lookup_cons_self
    · have hne : name ≠ entry.1 := fun h => hname (h ▸ List.mem_map_of_mem hmem)
      rw [List.lookup_cons, beq_false_of_ne hne]
      exact ih hnodup hmem

theorem mem_of_lookup {entries : List (String × Node)} {name : String} {node : Node}
    (h : entries.lookup name = some node) : (name, node) ∈ entries := by
  obtain ⟨before, after, rfl, -⟩ := List.lookup_eq_some_iff.1 h
  exact List.mem_append_right _ (.head _)

/-- A plain tree is one of files and directories, with distinct names. -/
theorem plain_iff {node : Node} : Plain node ↔ Regular node ∧ Distinct node := by
  constructor
  · intro h
    induction h with
    | file content => exact ⟨.file content, .file content⟩
    | dir hnodup _ ih =>
      exact ⟨.dir fun entry hentry => (ih entry.1 _ (lookup_of_mem hnodup hentry)).1,
        .dir hnodup fun entry hentry => (ih entry.1 _ (lookup_of_mem hnodup hentry)).2⟩
  · rintro ⟨hregular, hdistinct⟩
    induction hregular with
    | file content => exact .file content
    | dir _ ih =>
      cases hdistinct with
      | dir hnodup h =>
        refine .dir hnodup fun name node hlookup => ?_
        exact ih _ (mem_of_lookup hlookup) (h _ (mem_of_lookup hlookup))

theorem lookup_of_not_mem {entries : List (String × Node)} {name : String}
    (h : name ∉ entries.map Prod.fst) : entries.lookup name = none := by
  refine List.lookup_eq_none_iff.2 fun entry hentry => ?_
  have hne : entry.1 ≠ name := fun heq => h (heq ▸ List.mem_map_of_mem hentry)
  simpa using hne.symm

theorem plain_empty : Plain (dir []) := .dir List.nodup_nil fun _ _ h => by cases h

@[simp] theorem content_none (path : Path) : content none path = none := by
  rw [content, find_none]

theorem content_cons_dir (name : String) (path : Path) (entries : List (String × Node)) :
    content (some (dir entries)) (name :: path) = content (entries.lookup name) path := rfl

/-- What a change of a plain tree does, to the path and to all others. -/
theorem alter_plain {parents : Bool} {change : Option Node → Option (Option Node)} {path : Path}
    {node node' : Option Node} (hnode : ∀ n, node = some n → Plain n)
    (h : alter parents change path node = some node') :
    ∃ changed, change (find path node) = some changed ∧ find path node' = changed ∧
      (∀ other, ¬ path <+: other → content node' other = content node other) ∧
      ((∀ n, changed = some n → Plain n) → ∀ n, node' = some n → Plain n) := by
  induction path generalizing node node' with
  | nil => exact ⟨node', h, rfl, fun other hother => absurd (List.nil_prefix) hother, id⟩
  | cons name path ih =>
    -- a missing directory is like an empty one
    have hdir : ∃ entries, (node = some (dir entries) ∨ (node = none ∧ entries = [])) ∧
        ∃ below, alter parents change path (entries.lookup name) = some below ∧
          node' = some (dir (put entries name below)) := by
      cases node with
      | none =>
        rw [alter] at h
        split at h
        · obtain ⟨below', hbelow, rfl⟩ := Option.map_eq_some_iff.1 h
          obtain ⟨below, hchange, rfl⟩ := Option.map_eq_some_iff.1 hbelow
          exact ⟨[], .inr ⟨rfl, rfl⟩, below, hchange, rfl⟩
        · cases h
      | some node =>
        obtain ⟨below', hbelow, rfl⟩ := Option.map_eq_some_iff.1 h
        cases hnode node rfl with
        | file => cases hbelow
        | @dir entries =>
          obtain ⟨below, hchange, rfl⟩ := Option.map_eq_some_iff.1 hbelow
          exact ⟨entries, .inl rfl, below, hchange, rfl⟩
    obtain ⟨entries, hentries, below, hbelow, rfl⟩ := hdir
    have hplain : Plain (dir entries) := by
      rcases hentries with rfl | ⟨-, rfl⟩
      · exact hnode _ rfl
      · exact plain_empty
    have hfind : ∀ other, find (name :: other) node = find other (entries.lookup name) := by
      rcases hentries with rfl | ⟨rfl, rfl⟩
      · exact fun _ => rfl
      · exact fun _ => rfl
    have hcontent : ∀ other, content node other = content (some (dir entries)) other := by
      rcases hentries with rfl | ⟨rfl, rfl⟩
      · exact fun _ => rfl
      · rintro (_ | ⟨first, other⟩) <;> rfl
    have hlookup : ∀ n, entries.lookup name = some n → Plain n := by
      cases hplain with
      | dir _ h => exact h name
    obtain ⟨changed, hchanged, hfound, hothers, hkept⟩ := ih hlookup hbelow
    refine ⟨changed, by rwa [hfind], ?_, fun other hother => ?_, fun hc n hn => ?_⟩
    · rw [find_cons_dir, lookup_put_self]
      exact hfound
    · rw [hcontent]
      cases other with
      | nil => rfl
      | cons first other =>
        rw [content_cons_dir, content_cons_dir]
        -- only a path through the same entry can be one of those changed
        by_cases hfirst : first = name
        · subst hfirst
          rw [lookup_put_self]
          exact hothers other fun hstart => hother (List.cons_prefix_cons.2 ⟨rfl, hstart⟩)
        · rw [lookup_put_ne _ hfirst]
    · cases hn
      exact plain_put hplain name (hkept hc)

/-! ## Removing a directory -/

/-- What can be left of a tree while it is removed. -/
inductive Pruned : Node → Node → Prop
  | refl (node : Node) : Pruned node node
  | unlink {node : Node} {entries : List (String × Node)} (name : String)
      (h : Pruned node (dir entries)) : Pruned node (dir (put entries name none))
  | inside {node below below' : Node} {entries : List (String × Node)} {name : String}
      (h : Pruned node (dir entries)) (hbelow : entries.lookup name = some below)
      (hinside : Pruned below below') : Pruned node (dir (put entries name (some below')))

/-- What is left of a directory is a directory. -/
theorem Pruned.dir {entries : List (String × Node)} {node : Node} (h : Pruned (dir entries) node) :
    ∃ entries', node = .dir entries' := by
  cases h with
  | refl => exact ⟨_, rfl⟩
  | unlink => exact ⟨_, rfl⟩
  | inside => exact ⟨_, rfl⟩

end Node

end Inferences
