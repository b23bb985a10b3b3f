/-
  Offside.Proofs.FileStore
  ────────────────────────
  What can be said of a file store after it was changed.

  Where a path leads is settled by its names and the links (`placeOf`); what is
  in the store only says whether one gets there.  Making directories and writing
  a file keep everything else: `Kept` says so of any number of such changes, and
  `publish_of_accepts` says when a page can be put among the files at all.
-/
import Offside.Proofs.Actions

namespace Offside

namespace Files

/-! ## §1. Entries. -/

/-- The root is a directory. -/
theorem at?_nil (fs : Files) : fs.at? [] = some .directory := rfl

/-- Anywhere else the first entry of a location counts. -/
theorem at?_of_ne_nil {fs : Files} {loc : Location} (h : loc ≠ []) :
    fs.at? loc = (fs.entries.find? fun e => e.1 == loc).map (·.2) := by
  unfold at?
  rw [if_neg (by simpa using h)]
  simp only [Location.same_eq_beq]

/-- A file at a location is an entry of the store. -/
theorem mem_entries_of_file {fs : Files} {loc : Location} {content : ByteArray} {mtime : Binary64}
    {executable : Bool} (h : fs.at? loc = some (.file content mtime executable)) :
    (loc, .file content mtime executable) ∈ fs.entries := by
  have hne : loc ≠ [] := by
    rintro rfl
    exact absurd h (by simp [at?_nil])
  rw [at?_of_ne_nil hne] at h
  obtain ⟨⟨loc', entry⟩, hfind, hentry⟩ := Option.map_eq_some_iff.mp h
  have hloc : loc' = loc := by simpa using List.find?_some hfind
  have hmem := List.mem_of_find?_eq_some hfind
  rw [hloc] at hmem
  rw [← hentry]
  exact hmem

/-- A content of a file, and its modification time. -/
abbrev Version := ByteArray × Binary64

/-- The file at a location, if there is one. -/
def version? (fs : Files) (loc : Location) : Option Version :=
  match fs.at? loc with
  | some (.file content mtime _) => some (content, mtime)
  | _ => none

section Replace

variable {loc l : Location} {entry : FileEntry} {entries : List (Location × FileEntry)}

/-- Replacing an entry does not touch those of other locations. -/
theorem find?_replace_of_ne (h : l ≠ loc) :
    ((entries.map fun e => if e.1 == loc then (loc, entry) else e).find? fun e => e.1 == l)
      = entries.find? fun e => e.1 == l := by
  induction entries with
  | nil => rfl
  | cons e rest ih =>
    rw [List.map_cons, List.find?_cons, List.find?_cons, ih]
    by_cases he : e.1 = loc
    · have hloc : (loc == l) = false := by simpa using h.symm
      simp [he, hloc]
    · simp [he]

/-- A location that has an entry has the new one after it is replaced. -/
theorem find?_replace_self (h : entries.any (fun e => e.1 == loc) = true) :
    ((entries.map fun e => if e.1 == loc then (loc, entry) else e).find? fun e => e.1 == loc)
      = some (loc, entry) := by
  induction entries with
  | nil => exact absurd h (by simp)
  | cons e rest ih =>
    rw [List.map_cons, List.find?_cons]
    by_cases he : e.1 = loc
    · simp [he]
    · have hrest : rest.any (fun e => e.1 == loc) = true := by simpa [he] using h
      have hbeq : (e.1 == loc) = false := by simpa using he
      rw [ih hrest]
      simp [hbeq]

end Replace

/-- What is put at a location is there, and nothing else is changed. -/
theorem at?_put (fs : Files) {loc : Location} (hne : loc ≠ []) (entry : FileEntry) (l : Location) :
    (fs.put loc entry).at? l = if l = loc then some entry else fs.at? l := by
  by_cases hl : l = []
  · subst hl
    rw [if_neg hne.symm]
    rfl
  · rw [at?_of_ne_nil hl, at?_of_ne_nil hl]
    unfold put
    simp only [Location.same_eq_beq]
    by_cases hany : (fs.entries.any fun e => e.1 == loc) = true
    · rw [if_pos hany]
      by_cases hloc : l = loc
      · rw [if_pos hloc, hloc, find?_replace_self hany]
        rfl
      · rw [if_neg hloc, find?_replace_of_ne hloc]
    · rw [if_neg hany, List.find?_append]
      by_cases hloc : l = loc
      · have hnone : fs.entries.find? (fun e => e.1 == loc) = none := by
          rw [List.find?_eq_none]
          intro e he hbeq
          exact hany (List.any_eq_true.mpr ⟨e, he, hbeq⟩)
        simp [hloc, hnone]
      · have hbeq : (loc == l) = false := by simpa using Ne.symm hloc
        simp [hloc, hbeq]

/-- Entries come and go on the same ground. -/
theorem put_ground (fs : Files) (loc : Location) (entry : FileEntry) :
    (fs.put loc entry).toGround = fs.toGround := by
  unfold put
  split <;> rfl

/-! ## §2. Links. -/

section Follow

variable {links : List (Location × Path)} {loc : Location} {name : String} {names : List String}

/-- No names lead nowhere. -/
theorem follow_nil (links : List (Location × Path)) (more : Nat) (loc : Location) :
    follow links more loc [] = ⟨[], false⟩ := by
  cases more <;> rfl

/-- A name that is no link stays in the route. -/
theorem follow_cons_of_none (h : linkAt? links (hop loc name) = none) (more : Nat) :
    follow links more loc (name :: names) = (follow links more (hop loc name) names).after name := by
  cases more <;> simp only [follow, followUntil, h]

/-- A name that is a link is left for what the link holds. -/
theorem follow_cons_of_some {held : Path} (h : linkAt? links (hop loc name) = some held)
    (more : Nat) :
    follow links (more + 1) loc (name :: names)
      = follow links more loc (detour loc held ++ names) := by
  simp only [follow, followUntil, h]

/-- A link is not followed any more where too many were followed. -/
theorem follow_zero_cons_of_some {held : Path} (h : linkAt? links (hop loc name) = some held) :
    follow links 0 loc (name :: names) = ⟨[], true⟩ := by
  simp only [follow, followUntil, h]

/-- Where the links come to an end, following more of them leads the same way. -/
theorem follow_mono {few more : Nat} (hmore : few ≤ more)
    (h : (follow links few loc names).endless = false) :
    follow links more loc names = follow links few loc names := by
  induction few generalizing more loc names with
  | zero =>
    induction names generalizing loc with
    | nil => rw [follow_nil, follow_nil]
    | cons name rest ih =>
      cases hlink : linkAt? links (hop loc name) with
      | some held => simp [follow_zero_cons_of_some hlink] at h
      | none =>
        rw [follow_cons_of_none hlink] at h ⊢
        rw [follow_cons_of_none hlink, ih h]
  | succ few ihfew =>
    obtain ⟨more, rfl⟩ : ∃ m, more = m + 1 := ⟨more - 1, by omega⟩
    induction names generalizing loc with
    | nil => rw [follow_nil, follow_nil]
    | cons name rest ih =>
      cases hlink : linkAt? links (hop loc name) with
      | some held =>
        rw [follow_cons_of_some hlink] at h ⊢
        rw [follow_cons_of_some hlink, ihfew (by omega) h]
      | none =>
        rw [follow_cons_of_none hlink] at h ⊢
        rw [follow_cons_of_none hlink, ih h]

/-- A way is continued by a name that is not a link. -/
theorem follow_concat {more : Nat} (h : (follow links more loc names).endless = false)
    (hnone : linkAt? links (hop ((follow links more loc names).names.foldl hop loc) name) = none) :
    follow links more loc (names ++ [name])
      = ⟨(follow links more loc names).names ++ [name], false⟩ := by
  have hone : ∀ more loc, linkAt? links (hop loc name) = none →
      follow links more loc [name] = ⟨[name], false⟩ := by
    intro more loc hnone
    rw [follow_cons_of_none hnone, follow_nil]
    rfl
  -- a link takes one off `more`, any other name one off the names
  induction more generalizing loc names with
  | zero =>
    induction names generalizing loc with
    | nil => exact hone 0 loc (by simpa [follow_nil] using hnone)
    | cons first rest ih =>
      cases hlink : linkAt? links (hop loc first) with
      | some held => simp [follow_zero_cons_of_some hlink] at h
      | none =>
        rw [follow_cons_of_none hlink] at h hnone
        rw [List.cons_append, follow_cons_of_none hlink, follow_cons_of_none hlink, ih h hnone]
        rfl
  | succ more ihmore =>
    induction names generalizing loc with
    | nil => exact hone (more + 1) loc (by simpa [follow_nil] using hnone)
    | cons first rest ih =>
      cases hlink : linkAt? links (hop loc first) with
      | some held =>
        rw [follow_cons_of_some hlink] at h hnone
        rw [List.cons_append, follow_cons_of_some hlink, follow_cons_of_some hlink,
          ← List.append_assoc, ihmore h hnone]
      | none =>
        rw [follow_cons_of_none hlink] at h hnone
        rw [List.cons_append, follow_cons_of_none hlink, follow_cons_of_none hlink, ih h hnone]
        rfl

/-- Names that are no links are followed as they are. -/
theorem follow_of_direct (more : Nat)
    (h : ∀ n ≤ names.length, linkAt? links ((names.take n).foldl hop loc) = none) :
    follow links more loc names = ⟨names, false⟩ := by
  induction names generalizing loc with
  | nil => exact follow_nil links more loc
  | cons name rest ih =>
    have hfirst : linkAt? links (hop loc name) = none := by simpa using h 1
    have hrest : ∀ n ≤ rest.length,
        linkAt? links ((rest.take n).foldl hop (hop loc name)) = none := by
      intro n hn
      simpa using h (n + 1) (by simpa using hn)
    rw [follow_cons_of_none hfirst, ih hrest]
    rfl

end Follow

/-- No link stands on the way along a path. -/
def Direct (fs : Files) (p : Path) : Prop :=
  ∀ n ≤ p.parts.length, linkAt? fs.links ((p.parts.take n).foldl hop (fs.origin p)) = none

instance (fs : Files) (p : Path) : Decidable (fs.Direct p) :=
  inferInstanceAs (Decidable (∀ n ≤ p.parts.length, _))

/-- Without links every path is direct. -/
theorem direct_of_unlinked {fs : Files} (h : fs.links = []) (p : Path) : fs.Direct p := by
  intro n _
  rw [h]
  rfl

/-- The way of a direct path is direct. -/
theorem Direct.take {fs : Files} {p : Path} (h : fs.Direct p) (n : Nat) :
    fs.Direct ⟨p.anchor, p.parts.take n⟩ := by
  intro m hm
  rw [List.length_take] at hm
  simp only [List.take_take]
  exact h _ (by omega)

/-- The path above a direct one is direct. -/
theorem Direct.dropLast {fs : Files} {anchor : Anchor} {parts : List String}
    (h : fs.Direct ⟨anchor, parts⟩) : fs.Direct ⟨anchor, parts.dropLast⟩ := by
  rw [List.dropLast_eq_take]
  exact h.take _

/-- A direct path is followed name by name. -/
theorem Direct.follow {fs : Files} {p : Path} (h : fs.Direct p) (more : Nat) :
    Files.follow fs.links more (fs.origin p) p.parts = ⟨p.parts, false⟩ :=
  follow_of_direct more h

/-- The route of a direct path is its own names. -/
theorem Direct.route {fs : Files} {p : Path} (h : fs.Direct p) : fs.route p = ⟨p.parts, false⟩ :=
  h.follow maxLinks

theorem Direct.fullRoute {fs : Files} {p : Path} (h : fs.Direct p) :
    fs.fullRoute p = ⟨p.parts, false⟩ :=
  h.follow maxResolved

/-- So is its route up to the last name. -/
theorem Direct.routeTo {fs : Files} {p : Path} (h : fs.Direct p) :
    fs.routeTo p = ⟨p.parts, false⟩ := by
  obtain ⟨anchor, parts⟩ := p
  rcases List.eq_nil_or_concat' parts with rfl | ⟨above, name, rfl⟩
  · exact h.route
  · have habove := h.dropLast
    rw [List.dropLast_concat] at habove
    unfold Files.routeTo
    simp only [List.getLast?_concat, Path.parent, List.dropLast_concat, habove.route]

/-- There are no links, every directory may be listed, and a file may be of any
size. -/
structure Ordinary (fs : Files) : Prop where
  unlinked : fs.links = []
  listable : fs.sealed = []
  roomy : fs.limit = none

/-- On ordinary ground every path is direct. -/
theorem Ordinary.direct {fs : Files} (h : fs.Ordinary) (p : Path) : fs.Direct p :=
  direct_of_unlinked h.unlinked p

/-- Ordinary ground stays ordinary as long as it is the same. -/
theorem Ordinary.of_ground {fs fs' : Files} (h : fs.Ordinary)
    (hground : fs'.toGround = fs.toGround) : fs'.Ordinary := by
  refine ⟨?_, ?_, ?_⟩ <;> rw [hground]
  · exact h.unlinked
  · exact h.listable
  · exact h.roomy

/-! ## §3. Where a path leads. -/

/-- Where a path leads, whatever is on the way. -/
def placeOf (fs : Files) (p : Path) : Location := (fs.route p).names.foldl hop (fs.origin p)

section Ground

variable {fs fs' : Files} (h : fs'.toGround = fs.toGround) (p : Path)
include h

/-- Where a path sets out is a matter of the ground. -/
theorem origin_eq_of_ground : fs'.origin p = fs.origin p := by
  unfold origin
  rw [h]

/-- So is its route. -/
theorem route_eq_of_ground : fs'.route p = fs.route p := by
  unfold route
  rw [origin_eq_of_ground h, h]

theorem routeTo_eq_of_ground : fs'.routeTo p = fs.routeTo p := by
  unfold routeTo
  simp only [route_eq_of_ground h]

theorem fullRoute_eq_of_ground : fs'.fullRoute p = fs.fullRoute p := by
  unfold fullRoute
  rw [origin_eq_of_ground h, h]

/-- A path is resolved by links alone, whatever the entries are. -/
theorem resolve_eq_of_ground : fs'.resolve p = fs.resolve p := by
  unfold resolve
  rw [origin_eq_of_ground h, fullRoute_eq_of_ground h]

/-- Whether a path can be resolved depends on the ground only. -/
theorem unresolved?_eq_of_ground : fs'.unresolved? p = fs.unresolved? p := by
  unfold unresolved?
  rw [fullRoute_eq_of_ground h]

/-- The place of a path depends on the ground only. -/
theorem placeOf_eq_of_ground : fs'.placeOf p = fs.placeOf p := by
  unfold placeOf
  rw [origin_eq_of_ground h, route_eq_of_ground h]

end Ground

/-- Whether a path is direct depends on the ground only. -/
theorem Direct.of_ground {fs fs' : Files} {p : Path} (h : fs.Direct p)
    (hground : fs'.toGround = fs.toGround) : fs'.Direct p := by
  unfold Direct
  rw [origin_eq_of_ground hground, hground]
  exact h

/-- The place of a direct path is found by following its names one by one. -/
theorem Direct.placeOf {fs : Files} {p : Path} (h : fs.Direct p) :
    fs.placeOf p = p.parts.foldl hop (fs.origin p) := by
  unfold Files.placeOf
  rw [h.route]

/-- One name is followed if there is a directory and the name is not too long. -/
theorem walk_cons (fs : Files) (loc : Location) (name : String) (rest : List String) :
    fs.walk loc (name :: rest)
      = match fs.at? loc with
        | none => .error .notFound
        | some (.file ..) => .error .notDirectory
        | some .directory =>
          if maxNameBytes < name.utf8ByteSize then .error .nameTooLong
          else fs.walk (hop loc name) rest := rfl

/-- A walk that arrives has followed all names. -/
theorem walk_eq_ok {fs : Files} {loc loc' : Location} {names : List String}
    (h : fs.walk loc names = .ok loc') : loc' = names.foldl hop loc := by
  induction names generalizing loc with
  | nil =>
    injection h with h
    exact h.symm
  | cons name rest ih =>
    rw [walk_cons] at h
    split at h
    next => exact absurd h (by simp)
    next => exact absurd h (by simp)
    next =>
      split at h
      next => exact absurd h (by simp)
      next => exact ih h

/-- A walk is continued from where it has led. -/
theorem walk_append {fs : Files} {loc loc' : Location} {names : List String}
    (h : fs.walk loc names = .ok loc') (more : List String) :
    fs.walk loc (names ++ more) = fs.walk loc' more := by
  induction names generalizing loc with
  | nil =>
    injection h with h
    rw [h, List.nil_append]
  | cons name rest ih =>
    rw [List.cons_append, walk_cons]
    rw [walk_cons] at h
    split at h
    next => exact absurd h (by simp)
    next => exact absurd h (by simp)
    next hdirectory =>
      split at h
      next => exact absurd h (by simp)
      next hshort =>
        simp only [if_neg hshort]
        exact ih h

/-- From a directory a name that is not too long can be followed. -/
theorem walk_name {fs : Files} {loc : Location} {name : String}
    (hdirectory : fs.at? loc = some .directory) (hname : name.utf8ByteSize ≤ maxNameBytes) :
    fs.walk loc [name] = .ok (hop loc name) := by
  rw [walk_cons, hdirectory]
  simp only
  rw [if_neg (by omega)]
  rfl

/-- A route leads somewhere if its path is free of null characters and not too long,
its links come to an end, and its names can be followed. -/
theorem reach_eq_ok_iff {fs : Files} {p : Path} {route : Route} {loc : Location} :
    fs.reach p route = .ok loc ↔
      p.hasNull = false ∧ p.toString.utf8ByteSize ≤ maxPathBytes ∧ route.endless = false
        ∧ fs.walk (fs.origin p) route.names = .ok loc := by
  unfold reach
  cases p.hasNull with
  | true => simp
  | false =>
    by_cases hlong : maxPathBytes < p.toString.utf8ByteSize
    · simp [hlong]
    · cases fs.walk (fs.origin p) route.names <;> cases route.endless <;>
        simp [hlong, Nat.le_of_not_lt]

/-- A path is located if it has no null character, is not too long, has an end, and the
walk along its route arrives. -/
theorem locate_eq_ok_iff {fs : Files} {p : Path} {loc : Location} :
    fs.locate p = .ok loc ↔
      p.hasNull = false ∧ p.toString.utf8ByteSize ≤ maxPathBytes ∧ (fs.route p).endless = false
        ∧ fs.walk (fs.origin p) (fs.route p).names = .ok loc :=
  reach_eq_ok_iff

/-- A path is located at its place or not at all. -/
theorem locate_eq_ok {fs : Files} {p : Path} {loc : Location} (h : fs.locate p = .ok loc) :
    loc = fs.placeOf p :=
  walk_eq_ok (locate_eq_ok_iff.mp h).2.2.2

/-- Without links in the way, a path leads somewhere if its names can be followed. -/
theorem Direct.locate_eq_ok_iff {fs : Files} {p : Path} (h : fs.Direct p) {loc : Location} :
    fs.locate p = .ok loc ↔
      p.hasNull = false ∧ p.toString.utf8ByteSize ≤ maxPathBytes
        ∧ fs.walk (fs.origin p) p.parts = .ok loc := by
  rw [Files.locate_eq_ok_iff, h.route]
  simp

/-- The way to the last name of a path is the way along all of it, if that name is not
a link. -/
theorem route_of_routeTo {fs : Files} {p : Path} (h : (fs.routeTo p).endless = false)
    (hnone : linkAt? fs.links ((fs.routeTo p).names.foldl hop (fs.origin p)) = none) :
    fs.route p = fs.routeTo p := by
  obtain ⟨anchor, parts⟩ := p
  rcases List.eq_nil_or_concat' parts with rfl | ⟨above, name, rfl⟩
  · rfl
  · have hrouteTo : fs.routeTo ⟨anchor, above ++ [name]⟩
        = { fs.route ⟨anchor, above⟩ with names := (fs.route ⟨anchor, above⟩).names ++ [name] } := by
      unfold routeTo
      simp only [List.getLast?_concat, Path.parent, List.dropLast_concat]
    rw [hrouteTo] at h hnone ⊢
    rw [List.foldl_append] at hnone
    have hroute := follow_concat h hnone
    refine hroute.trans ?_
    rw [← h]
    rfl

/-- What is found at a path is at its place. -/
theorem stat_eq_ok {fs : Files} {p : Path} {entry : FileEntry} (h : fs.stat p = .ok entry) :
    fs.locate p = .ok (fs.placeOf p) ∧ fs.at? (fs.placeOf p) = some entry := by
  unfold stat at h
  cases hlocate : fs.locate p with
  | error e => simp [hlocate] at h
  | ok loc =>
    obtain rfl := locate_eq_ok hlocate
    cases hat : fs.at? (fs.placeOf p) with
    | none => simp [hlocate, hat] at h
    | some found =>
      simp only [hlocate, hat] at h
      injection h with h
      rw [h]
      exact ⟨rfl, rfl⟩

/-- A path that leads to a location leads to what is there. -/
theorem stat_of_locate {fs : Files} {p : Path} {loc : Location} {entry : FileEntry}
    (hlocate : fs.locate p = .ok loc) (hat : fs.at? loc = some entry) : fs.stat p = .ok entry := by
  unfold stat
  rw [hlocate]
  simp only [hat]

/-- A path with a null character in it leads nowhere. -/
theorem hasNull_of_stat {fs : Files} {p : Path} {entry : FileEntry} (h : fs.stat p = .ok entry) :
    p.hasNull = false :=
  (locate_eq_ok_iff.mp (stat_eq_ok h).1).1

/-- A path that leads to something can be resolved, along the same way. -/
theorem fullRoute_of_stat {fs : Files} {p : Path} {entry : FileEntry} (h : fs.stat p = .ok entry) :
    fs.fullRoute p = fs.route p :=
  follow_mono (by decide) (locate_eq_ok_iff.mp (stat_eq_ok h).1).2.2.1

/-- A path that leads somewhere can be resolved. -/
theorem unresolved?_of_stat {fs : Files} {p : Path} {entry : FileEntry}
    (h : fs.stat p = .ok entry) : fs.unresolved? p = none := by
  unfold unresolved?
  rw [hasNull_of_stat h, fullRoute_of_stat h, (locate_eq_ok_iff.mp (stat_eq_ok h).1).2.2.1]
  rfl

/-- Without links in the way, only a null character keeps a path from being resolved. -/
theorem Direct.unresolved?_eq_none {fs : Files} {p : Path} (h : fs.Direct p)
    (hnull : p.hasNull = false) : fs.unresolved? p = none := by
  unfold unresolved?
  rw [hnull, h.fullRoute]
  rfl

/-- A path that can be resolved has no null character. -/
theorem hasNull_of_unresolved? {fs : Files} {p : Path} (h : fs.unresolved? p = none) :
    p.hasNull = false := by
  unfold unresolved? at h
  split at h
  next => exact absurd h (by simp)
  next hnull => simpa using hnull

/-- What is seen at a path is what is found there. -/
theorem look_eq_ok_some {fs : Files} {p : Path} {entry : FileEntry}
    (h : fs.look p = .ok (some entry)) : fs.stat p = .ok entry := by
  unfold look at h
  split at h
  next found hstat =>
    injection h with h
    injection h with h
    rw [hstat, h]
  next => exact absurd h (by simp)
  next => exact absurd h (by simp)

/-- What is found at a path is seen. -/
theorem look_of_stat {fs : Files} {p : Path} {entry : FileEntry} (h : fs.stat p = .ok entry) :
    fs.look p = .ok (some entry) := by
  unfold look
  rw [h]

/-- A path that leads somewhere can be looked at. -/
theorem look_of_locate {fs : Files} {p : Path} {loc : Location} (h : fs.locate p = .ok loc) :
    fs.look p = .ok (fs.at? loc) := by
  unfold look stat
  rw [h]
  cases hat : fs.at? loc <;> simp only [hat]

/-- Only a path that is too long cannot be looked at. -/
theorem look_of_tooLong {fs : Files} {p : Path} {path : String}
    (h : fs.locate p = .error (.refused .nameTooLong path)) :
    fs.look p = .error (.refused .nameTooLong path) := by
  unfold look stat
  simp only [h]

/-- Nothing is seen along a path with a null character. -/
theorem look_of_hasNull {fs : Files} {p : Path} (h : p.hasNull = true) : fs.look p = .ok none := by
  have hlocate : fs.locate p = .error .nullInPath := by
    unfold locate reach
    rw [if_pos h]
  unfold look stat
  simp only [hlocate]

/-- A path that is known for a directory is seen to be one. -/
theorem look_of_isDirectory {fs : Files} {p : Path} (h : fs.isDirectory p = true) :
    fs.look p = .ok (some .directory) := by
  unfold isDirectory at h
  split at h
  next hstat => exact look_of_stat hstat
  next => exact absurd h (by simp)

/-- A file that is found can be read. -/
theorem read_of_stat {fs : Files} {p : Path} {content : ByteArray} {mtime : Binary64}
    {executable : Bool} (h : fs.stat p = .ok (.file content mtime executable)) :
    fs.read p = .ok content := by
  unfold read
  rw [h]

/-- The version of a file that is found is its content and its time. -/
theorem version?_of_stat {fs : Files} {p : Path} {content : ByteArray} {mtime : Binary64}
    {executable : Bool} (h : fs.stat p = .ok (.file content mtime executable)) :
    fs.version? (fs.placeOf p) = some (content, mtime) := by
  unfold version?
  rw [(stat_eq_ok h).2]

/-- A location that is passed along a path, its end included. -/
def OnWay (fs : Files) (p : Path) (loc : Location) : Prop :=
  ∃ n, loc = fs.placeOf ⟨p.anchor, p.parts.take n⟩

/-- The place of a path is on its way. -/
theorem onWay_placeOf (fs : Files) (p : Path) : fs.OnWay p (fs.placeOf p) :=
  ⟨p.parts.length, by rw [List.take_length]⟩

/-- The way to the directory above is part of the way. -/
theorem OnWay.of_dropLast {fs : Files} {anchor : Anchor} {parts : List String} {loc : Location}
    (h : fs.OnWay ⟨anchor, parts.dropLast⟩ loc) : fs.OnWay ⟨anchor, parts⟩ loc := by
  obtain ⟨n, rfl⟩ := h
  refine ⟨min n (parts.length - 1), ?_⟩
  rw [List.dropLast_eq_take, List.take_take]

/-- The way of a path depends on the ground only. -/
theorem onWay_eq_of_ground {fs fs' : Files} (h : fs'.toGround = fs.toGround) (p : Path) :
    fs'.OnWay p = fs.OnWay p := by
  funext loc
  simp only [OnWay, placeOf_eq_of_ground h]

/-- At the place of a direct path there is no link. -/
theorem Direct.linkAt?_placeOf {fs : Files} {p : Path} (h : fs.Direct p) :
    linkAt? fs.links (fs.placeOf p) = none := by
  have hend := h p.parts.length (Nat.le_refl _)
  rw [List.take_length] at hend
  rw [h.placeOf]
  exact hend

/-- The last name of a direct path is followed from the place of the path above. -/
theorem Direct.placeOf_concat {fs : Files} {anchor : Anchor} {above : List String} {name : String}
    (h : fs.Direct ⟨anchor, above ++ [name]⟩) :
    fs.placeOf ⟨anchor, above ++ [name]⟩ = hop (fs.placeOf ⟨anchor, above⟩) name := by
  have habove : fs.Direct ⟨anchor, above⟩ := by
    have := h.dropLast
    rwa [List.dropLast_concat] at this
  rw [h.placeOf, habove.placeOf, List.foldl_append]
  rfl

/-! ## §4. Changes that keep what is there. -/

/-- Everything of a store is still there after a change, except that directories
were made at some locations where there was nothing, and files were written at
others where there was no directory. -/
structure Kept (made written : Location → Prop) (before after : Files) : Prop where
  ground : after.toGround = before.toGround
  entry : ∀ loc, after.at? loc = before.at? loc
    ∨ (made loc ∧ before.at? loc = none ∧ after.at? loc = some .directory)
    ∨ (written loc ∧ before.at? loc ≠ some .directory ∧ after.version? loc ≠ none)

namespace Kept

variable {made made' written written' : Location → Prop} {a b c : Files}

/-- Nothing done leaves everything as it was. -/
theorem refl (made written : Location → Prop) (a : Files) : Kept made written a a :=
  ⟨rfl, fun _ => .inl rfl⟩

/-- Directories stay directories. -/
theorem directory (h : Kept made written a b) {loc : Location}
    (hdirectory : a.at? loc = some .directory) : b.at? loc = some .directory := by
  rcases h.entry loc with hsame | ⟨-, hnone, -⟩ | ⟨-, hother, -⟩
  · rw [hsame, hdirectory]
  · exact absurd hdirectory (by simp [hnone])
  · exact absurd hdirectory hother

/-- What is a file after one change is not made a directory by the next. -/
theorem trans (hab : Kept made written a b) (hbc : Kept made written b c) :
    Kept made written a c := by
  refine ⟨hbc.ground.trans hab.ground, ?_⟩
  intro loc
  rcases hab.entry loc with hsame | ⟨hmade, hnone, hdirectory⟩ | ⟨hwritten, hother, hfile⟩
  · rw [← hsame]
    exact hbc.entry loc
  · exact .inr (.inl ⟨hmade, hnone, hbc.directory hdirectory⟩)
  · refine .inr (.inr ⟨hwritten, hother, ?_⟩)
    rcases hbc.entry loc with hsame | ⟨-, hnone, -⟩ | ⟨-, -, hfile'⟩
    · unfold version? at hfile ⊢
      rw [hsame]
      exact hfile
    · exact absurd (by simp [version?, hnone]) hfile
    · exact hfile'

/-- More may be made and written than is. -/
theorem mono (h : Kept made written a b) (hmade : ∀ loc, made loc → made' loc)
    (hwritten : ∀ loc, written loc → written' loc) : Kept made' written' a b := by
  refine ⟨h.ground, fun loc => ?_⟩
  rcases h.entry loc with hsame | ⟨hm, hrest⟩ | ⟨hw, hrest⟩
  · exact .inl hsame
  · exact .inr (.inl ⟨hmade loc hm, hrest⟩)
  · exact .inr (.inr ⟨hwritten loc hw, hrest⟩)

/-- Where nothing was written there is the same file, or still none. -/
theorem version? (h : Kept made written a b) {loc : Location} (hloc : ¬ written loc) :
    b.version? loc = a.version? loc := by
  unfold Files.version?
  rcases h.entry loc with hsame | ⟨-, hnone, hdirectory⟩ | ⟨hwritten, -⟩
  · rw [hsame]
  · rw [hnone, hdirectory]
  · exact absurd hwritten hloc

/-- A file that may not be written to is the same afterwards, and no file is new. -/
theorem file_iff (h : Kept made written a b) {loc : Location} (hloc : ¬ written loc)
    {content : ByteArray} {mtime : Binary64} {executable : Bool} :
    b.at? loc = some (.file content mtime executable)
      ↔ a.at? loc = some (.file content mtime executable) := by
  rcases h.entry loc with hsame | ⟨-, hnone, hdirectory⟩ | ⟨hwritten, -⟩
  · rw [hsame]
  · simp [hnone, hdirectory]
  · exact absurd hwritten hloc

/-- A path that could be walked down can be walked down again. -/
theorem walk (h : Kept made written a b) {loc loc' : Location} {names : List String}
    (hwalk : a.walk loc names = .ok loc') : b.walk loc names = .ok loc' := by
  induction names generalizing loc with
  | nil => exact hwalk
  | cons name rest ih =>
    rw [walk_cons] at hwalk ⊢
    split at hwalk
    next => exact absurd hwalk (by simp)
    next => exact absurd hwalk (by simp)
    next hdirectory =>
      rw [h.directory hdirectory]
      simp only
      split at hwalk
      next => exact absurd hwalk (by simp)
      next hshort =>
        rw [if_neg hshort]
        exact ih hwalk

/-- A path that led to a place still does. -/
theorem locate (h : Kept made written a b) {p : Path} {loc : Location}
    (hlocate : a.locate p = .ok loc) : b.locate p = .ok loc := by
  obtain ⟨hnull, hshort, hends, hwalk⟩ := locate_eq_ok_iff.mp hlocate
  rw [← route_eq_of_ground h.ground] at hends hwalk
  refine locate_eq_ok_iff.mpr ⟨hnull, hshort, hends, ?_⟩
  rw [origin_eq_of_ground h.ground]
  exact h.walk hwalk

/-- A file can still be reached where nothing was written. -/
theorem stat (h : Kept made written a b) {p : Path} (hp : ¬ written (a.placeOf p))
    {content : ByteArray} {mtime : Binary64} {executable : Bool}
    (hstat : a.stat p = .ok (.file content mtime executable)) :
    b.stat p = .ok (.file content mtime executable) := by
  obtain ⟨hlocate, hat⟩ := stat_eq_ok hstat
  exact stat_of_locate (h.locate hlocate) ((h.file_iff hp).mpr hat)

end Kept

/-- A new directory, where there was nothing, is all that is made. -/
theorem put_directory_kept {fs : Files} {loc : Location} (h : fs.at? loc = none) :
    Kept (· = loc) (fun _ => False) fs (fs.put loc .directory) := by
  have hne : loc ≠ [] := by
    rintro rfl
    exact absurd h (by simp [at?_nil])
  refine ⟨put_ground .., fun l => ?_⟩
  rw [at?_put fs hne]
  split
  next hl => exact .inr (.inl ⟨hl, hl ▸ h, rfl⟩)
  next => exact .inl rfl

/-- A directory that was made is at its location, which is not a link; otherwise the
link leads to one. -/
theorem makeAt_kept {fs fs' : Files} {p : Path} {mayExist : Bool} {loc loc' : Location}
    (h : fs.makeAt p mayExist loc = .ok (fs', loc')) :
    (linkAt? fs.links loc = none ∧ loc' = loc ∧ Kept (· = loc) (fun _ => False) fs fs'
        ∧ fs'.at? loc = some .directory)
      ∨ (linkAt? fs.links loc ≠ none ∧ fs.locate p = .ok loc' ∧ fs' = fs) := by
  unfold makeAt at h
  split at h
  next hlink =>
    -- a link is never replaced: it is held to be the directory if it leads to one
    split at h
    next held hlocate =>
      split at h
      next =>
        injection h with h
        injection h with h₁ h₂
        subst h₁ h₂
        exact .inr ⟨by simp [hlink], hlocate, rfl⟩
      next => exact absurd h (by simp)
    next => exact absurd h (by simp)
  next hlink =>
    refine .inl ⟨hlink, ?_⟩
    split at h
    next hnone =>
      injection h with h
      injection h with h₁ h₂
      subst h₁ h₂
      have hne : loc ≠ [] := by
        rintro rfl
        exact absurd hnone (by simp [at?_nil])
      refine ⟨rfl, put_directory_kept hnone, ?_⟩
      rw [at?_put fs hne, if_pos rfl]
    next hdirectory =>
      injection h with h
      injection h with h₁ h₂
      subst h₁ h₂
      exact ⟨rfl, Kept.refl _ _ fs, hdirectory⟩
    next => exact absurd h (by simp)

/-- Making one directory keeps everything else, and gives back where its path leads. -/
theorem settled_kept {fs : Files} {p : Path} {loc : Location}
    (hends : (fs.routeTo p).endless = false)
    (hloc : loc = (fs.routeTo p).names.foldl hop (fs.origin p)) (mayExist : Bool) :
    Kept (· = fs.placeOf p) (fun _ => False) fs (makeMissing.settled fs (fs.makeAt p mayExist loc)).1
      ∧ ∀ loc', (makeMissing.settled fs (fs.makeAt p mayExist loc)).2 = .ok loc' →
          loc' = fs.placeOf p ∧ (fs.route p).endless = false := by
  cases hmake : fs.makeAt p mayExist loc with
  | error e => exact ⟨Kept.refl _ _ fs, by simp [makeMissing.settled]⟩
  | ok made =>
    rcases makeAt_kept hmake with ⟨hnone, hmade, hkept, -⟩ | ⟨-, hlocate, hsame⟩
    · have hroute : fs.route p = fs.routeTo p := route_of_routeTo hends (hloc ▸ hnone)
      have hplace : loc = fs.placeOf p := by
        rw [hloc, placeOf, hroute]
      refine ⟨hplace ▸ hkept, fun loc' h => ?_⟩
      injection h with h
      exact ⟨by rw [← h, hmade, hplace], by rw [hroute, hends]⟩
    · have hkept : Kept (· = fs.placeOf p) (fun _ => False) fs made.1 := by
        rw [hsame]
        exact Kept.refl _ _ fs
      refine ⟨hkept, fun loc' h => ?_⟩
      injection h with h
      rw [h] at hlocate
      exact ⟨locate_eq_ok hlocate, (locate_eq_ok_iff.mp hlocate).2.2.1⟩

/-- **Making directories** along a path touches nothing else, and ends where the
path leads. -/
theorem makeMissing_kept (fs : Files) (anchor : Anchor) (room : Nat) (mayExist : Bool)
    (parts : List String) :
    Kept (fs.OnWay ⟨anchor, parts⟩) (fun _ => False) fs
        (fs.makeMissing anchor room mayExist parts).1
      ∧ ∀ loc, (fs.makeMissing anchor room mayExist parts).2 = .ok loc →
          loc = fs.placeOf ⟨anchor, parts⟩ ∧ (fs.route ⟨anchor, parts⟩).endless = false := by
  induction room generalizing mayExist parts with
  | zero => exact ⟨Kept.refl _ _ fs, by simp [makeMissing]⟩
  | succ room ih =>
    have hend : ∀ loc, loc = fs.placeOf ⟨anchor, parts⟩ → fs.OnWay ⟨anchor, parts⟩ loc := by
      rintro loc rfl
      exact fs.onWay_placeOf ⟨anchor, parts⟩
    unfold makeMissing
    simp only
    split
    -- something is missing: what is above is made first, then the last name is followed
    next cause name hreach hlast =>
      obtain ⟨habove, hplace⟩ := ih true parts.dropLast
      rcases hmade : fs.makeMissing anchor room true parts.dropLast with ⟨fs', made⟩
      rw [hmade] at habove hplace
      have habove := habove.mono (fun _ h => OnWay.of_dropLast h) fun _ h => h
      cases made with
      | error e => exact ⟨habove, by simp⟩
      | ok above =>
        obtain ⟨hloc, hends⟩ := hplace above rfl
        simp only
        split
        next => exact ⟨habove, by simp⟩
        next loc hwalk =>
          have hrouteTo : fs'.routeTo ⟨anchor, parts⟩ = { fs.route ⟨anchor, parts.dropLast⟩ with
              names := (fs.route ⟨anchor, parts.dropLast⟩).names ++ [name] } := by
            rw [routeTo_eq_of_ground habove.ground]
            unfold routeTo
            simp only [hlast, Path.parent]
          obtain ⟨hkept, hresult⟩ := settled_kept
            (show (fs'.routeTo ⟨anchor, parts⟩).endless = false by rw [hrouteTo, hends])
            (show loc = _ by
              rw [walk_eq_ok hwalk, hloc, hrouteTo, List.foldl_append,
                origin_eq_of_ground habove.ground]
              rfl)
            mayExist
          rw [placeOf_eq_of_ground habove.ground] at hkept
          refine ⟨habove.trans (hkept.mono hend fun _ h => h), ?_⟩
          intro l hl
          rw [← placeOf_eq_of_ground habove.ground, ← route_eq_of_ground habove.ground]
          exact hresult l hl
    next => exact ⟨Kept.refl _ _ fs, by simp⟩
    next loc hreach =>
      obtain ⟨-, -, hends, hwalk⟩ := reach_eq_ok_iff.mp hreach
      obtain ⟨hkept, hresult⟩ := settled_kept hends (walk_eq_ok hwalk) mayExist
      exact ⟨hkept.mono hend fun _ h => h, hresult⟩

/-- Making directories makes only those on the way, and writes to no file. -/
theorem makeDirectories_kept (fs : Files) (p : Path) (mayExist : Bool) :
    Kept (fs.OnWay p) (fun _ => False) fs (fs.makeDirectories p mayExist).1 :=
  (makeMissing_kept fs p.anchor maxMissing mayExist p.parts).1

/-- **A file is opened** where its path leads: it is empty, and nothing else is
changed. -/
theorem openNew_eq_ok {fs opened : Files} {p : Path} {loc : Location}
    (h : fs.openNew p = .ok (opened, loc)) :
    loc = fs.placeOf p ∧ fs.at? loc ≠ some .directory
      ∧ opened = { fs.put loc (.file .empty fs.currentTime (fs.isExecutable loc)) with
          writes := fs.writes + 1 } := by
  unfold openNew at h
  cases hlocate : fs.locate p with
  | error e => simp [hlocate] at h
  | ok place =>
    obtain rfl := locate_eq_ok hlocate
    simp only [hlocate] at h
    split at h
    next => exact absurd h (by simp)
    next hat =>
      injection h with h
      injection h with h₁ h₂
      subst h₁ h₂
      exact ⟨rfl, hat, rfl⟩

/-- **A file that was opened is filled** with what fits of the content, and the writing
fails if that is not all. -/
theorem write_of_openNew {fs opened : Files} {p : Path} {loc : Location}
    (h : fs.openNew p = .ok (opened, loc)) (content : ByteArray) :
    (fs.write p content).1.toGround = fs.toGround
      ∧ (∀ l, (fs.write p content).1.at? l = if l = loc
          then some (.file (fs.fitting content) fs.currentTime (fs.isExecutable loc))
          else fs.at? l)
      ∧ (fs.write p content).2
          = if fs.fits content then .ok () else .error (.refused .tooLarge p.toString) := by
  obtain ⟨-, hfile, hopened⟩ := openNew_eq_ok h
  have hne : loc ≠ [] := by
    rintro rfl
    exact hfile (at?_nil fs)
  have hat : ∀ l, opened.at? l = if l = loc
      then some (.file .empty fs.currentTime (fs.isExecutable loc)) else fs.at? l := by
    intro l
    rw [hopened]
    exact at?_put fs hne _ l
  have hground : opened.toGround = fs.toGround := by
    rw [hopened]
    exact put_ground ..
  have hhere := hat loc
  rw [if_pos rfl] at hhere
  unfold write
  simp only [h, fill, hhere]
  refine ⟨(put_ground ..).trans hground, fun l => ?_, ?_⟩
  · rw [at?_put opened hne, hat, fitting, fitting, hground]
    split <;> rfl
  · rw [fits, fits, hground]

/-- A file that cannot be opened is not written to. -/
theorem write_of_refused {fs : Files} {p : Path} {e : FileError} (h : fs.openNew p = .error e)
    (content : ByteArray) : fs.write p content = (fs, .error e) := by
  unfold write
  rw [h]

/-- A content that fits is written as a whole. -/
theorem fitting_eq_of_fits {fs : Files} {content : ByteArray} (h : fs.fits content = true) :
    fs.fitting content = content := by
  unfold fits at h
  unfold fitting
  split
  next => rfl
  next limit hlimit =>
    rw [hlimit] at h
    rw [if_pos (by simpa using h)]

/-- **A file is written** where its path leads, and nowhere else, whether or not all of
the content fits. -/
theorem write_kept (fs : Files) (p : Path) (content : ByteArray) :
    Kept (fun _ => False) (· = fs.placeOf p) fs (fs.write p content).1 := by
  cases hopen : fs.openNew p with
  | error e =>
    rw [write_of_refused hopen]
    exact Kept.refl _ _ fs
  | ok result =>
    obtain ⟨opened, loc⟩ := result
    obtain ⟨rfl, hfile, -⟩ := openNew_eq_ok hopen
    obtain ⟨hground, hat, -⟩ := write_of_openNew hopen content
    refine ⟨hground, fun l => ?_⟩
    by_cases hl : l = fs.placeOf p
    · subst hl
      exact .inr (.inr ⟨rfl, hfile, by simp [version?, hat]⟩)
    · rw [hat, if_neg hl]
      exact .inl rfl

/-- A file that was opened holds what fits of its content. -/
theorem version?_of_openNew {fs opened : Files} {p : Path} {loc : Location}
    (h : fs.openNew p = .ok (opened, loc)) (content : ByteArray) :
    (fs.write p content).1.version? (fs.placeOf p)
      = some (fs.fitting content, fs.currentTime) := by
  obtain ⟨rfl, -, -⟩ := openNew_eq_ok h
  unfold version?
  rw [(write_of_openNew h content).2.1, if_pos rfl]

/-- What was written without a failure is there. -/
theorem version?_of_write {fs : Files} {p : Path} {content : ByteArray}
    (h : (fs.write p content).2 = .ok ()) :
    ∃ mtime, (fs.write p content).1.version? (fs.placeOf p) = some (content, mtime) := by
  cases hopen : fs.openNew p with
  | error e =>
    rw [write_of_refused hopen] at h
    exact absurd h (by simp)
  | ok result =>
    obtain ⟨opened, loc⟩ := result
    have hfits : fs.fits content = true := by
      rw [(write_of_openNew hopen content).2.2] at h
      split at h
      next hfits => exact hfits
      next => exact absurd h (by simp)
    refine ⟨fs.currentTime, ?_⟩
    rw [version?_of_openNew hopen, fitting_eq_of_fits hfits]

/-! ## §5. Refusals. -/

end Files

/-- Whether a file was opened, so that it is empty or new, and could not be filled. -/
def Failure.brokeOff : Failure → Bool
  | .files (.refused .tooLarge _) => true
  | _ => false

/-- An error that is a refusal, and that comes before any file is opened. -/
def FileError.IsEarly (e : FileError) : Prop :=
  e.isRefusal = true ∧ (Failure.files e).brokeOff = false

namespace Files

/-- A walk fails because something is missing, or is no directory, or has too long a
name. -/
theorem walk_cause {fs : Files} {loc : Location} {names : List String} {cause : FileCause}
    (h : fs.walk loc names = .error cause) :
    cause = .notFound ∨ cause = .notDirectory ∨ cause = .nameTooLong := by
  induction names generalizing loc with
  | nil => exact absurd h (by simp [walk])
  | cons name rest ih =>
    rw [walk_cons] at h
    split at h
    next =>
      injection h with h
      exact .inl h.symm
    next =>
      injection h with h
      exact .inr (.inl h.symm)
    next =>
      split at h
      next =>
        injection h with h
        exact .inr (.inr h.symm)
      next => exact ih h

/-- A walk that fails is refused. -/
theorem walk_early {fs : Files} {loc : Location} {names : List String} {cause : FileCause}
    (h : fs.walk loc names = .error cause) (path : String) :
    (FileError.refused cause path).IsEarly := by
  rcases walk_cause h with rfl | rfl | rfl <;> exact ⟨rfl, rfl⟩

/-- **A path is not reached** because it has a null character in it, or it is refused. -/
theorem reach_error {fs : Files} {p : Path} {route : Route} {e : FileError}
    (h : fs.reach p route = .error e) : p.hasNull = true ∧ e = .nullInPath ∨ e.IsEarly := by
  unfold reach at h
  split at h
  next hnull =>
    injection h with h
    exact .inl ⟨hnull, h.symm⟩
  next =>
    right
    split at h
    next =>
      injection h with h
      exact h ▸ ⟨rfl, rfl⟩
    next =>
      split at h
      next cause hwalk =>
        injection h with h
        exact h ▸ walk_early hwalk _
      next =>
        split at h
        next =>
          injection h with h
          exact h ▸ ⟨rfl, rfl⟩
        next => exact absurd h (by simp)

/-- A path without null characters is located, or refused. -/
theorem locate_refuses {fs : Files} {p : Path} (hnull : p.hasNull = false) {e : FileError}
    (h : fs.locate p = .error e) : e.isRefusal = true := by
  rcases reach_error h with ⟨hnull', -⟩ | hearly
  · exact absurd hnull' (by simp [hnull])
  · exact hearly.1

/-- A path without null characters is found, or refused. -/
theorem stat_refuses {fs : Files} {p : Path} (hnull : p.hasNull = false) {e : FileError}
    (h : fs.stat p = .error e) : e.isRefusal = true := by
  unfold stat at h
  cases hlocate : fs.locate p with
  | error e' =>
    rw [hlocate] at h
    injection h with h
    exact h ▸ locate_refuses hnull hlocate
  | ok loc =>
    rw [hlocate] at h
    simp only at h
    split at h
    next =>
      injection h with h
      exact h ▸ rfl
    next => exact absurd h (by simp)

/-- Looking at a path can only be refused. -/
theorem look_refuses {fs : Files} {p : Path} {e : FileError} (h : fs.look p = .error e) :
    e.isRefusal = true := by
  unfold look at h
  split at h
  next => exact absurd h (by simp)
  next =>
    injection h with h
    exact h ▸ rfl
  next => exact absurd h (by simp)

/-- **A file is not opened** because its path has a null character in it, or it is
refused. -/
theorem openNew_error {fs : Files} {p : Path} {e : FileError} (h : fs.openNew p = .error e) :
    p.hasNull = true ∧ e = .nullInPath ∨ e.IsEarly := by
  unfold openNew at h
  split at h
  next e' hlocate =>
    injection h with h
    exact h ▸ reach_error hlocate
  next =>
    split at h
    next =>
      injection h with h
      exact .inr (h ▸ ⟨rfl, rfl⟩)
    next => exact absurd h (by simp)

/-- Writing to such a path works, or is refused. -/
theorem write_refuses {fs : Files} {p : Path} {content : ByteArray} (hnull : p.hasNull = false)
    {e : FileError} (h : (fs.write p content).2 = .error e) : e.isRefusal = true := by
  cases hopen : fs.openNew p with
  | error e' =>
    rw [write_of_refused hopen] at h
    injection h with h
    rcases openNew_error hopen with ⟨hnull', -⟩ | hearly
    · exact absurd hnull' (by simp [hnull])
    · exact h ▸ hearly.1
  | ok opened =>
    rw [(write_of_openNew hopen content).2.2] at h
    split at h
    next => exact absurd h (by simp)
    next =>
      injection h with h
      exact h ▸ rfl

/-- A directory is not made only because something else is there. -/
theorem makeAt_eq_error {fs : Files} {p : Path} {mayExist : Bool} {loc : Location} {e : FileError}
    (h : fs.makeAt p mayExist loc = .error e) : e = .refused .exists p.toString := by
  unfold makeAt at h
  split at h
  next =>
    split at h
    next =>
      split at h
      next => exact absurd h (by simp)
      next => simpa using h.symm
    next => simpa using h.symm
  next =>
    split at h
    next => exact absurd h (by simp)
    next => exact absurd h (by simp)
    next => simpa using h.symm

/-- A directory that is made anew fails only if something else is there. -/
theorem settled_eq_error {fs : Files} {p : Path} {mayExist : Bool} {loc : Location}
    {e : FileError} (h : (makeMissing.settled fs (fs.makeAt p mayExist loc)).2 = .error e) :
    e = .refused .exists p.toString := by
  cases hmake : fs.makeAt p mayExist loc with
  | error e' =>
    rw [hmake] at h
    injection h with h
    exact h ▸ makeAt_eq_error hmake
  | ok made => simp [hmake, makeMissing.settled] at h

/-- Without its last name, a path has no null character that it did not have before. -/
theorem hasNull_dropLast {anchor : Anchor} {parts : List String}
    (h : (Path.mk anchor parts).hasNull = false) :
    (Path.mk anchor parts.dropLast).hasNull = false := by
  simp only [Path.hasNull, List.any_eq_false] at h ⊢
  exact fun part hpart => h part (List.dropLast_subset parts hpart)

/-- **Directories are not made** because the path has a null character in it, or there
is not room for every part of it, or they are refused. -/
theorem makeMissing_error {fs : Files} {anchor : Anchor} {room : Nat} {mayExist : Bool}
    {parts : List String} {e : FileError}
    (h : (fs.makeMissing anchor room mayExist parts).2 = .error e) :
    (Path.mk anchor parts).hasNull = true ∧ e = .nullInPath
      ∨ room ≤ parts.length ∧ e = .tooDeep ∨ e.IsEarly := by
  induction room generalizing mayExist parts e with
  | zero =>
    injection h with h
    exact .inr (.inl ⟨Nat.zero_le _, h.symm⟩)
  | succ room ih =>
    unfold makeMissing at h
    simp only at h
    split at h
    next cause name hlocate hlast =>
      rcases hmade : fs.makeMissing anchor room true parts.dropLast with ⟨fs', made⟩
      rw [hmade] at h
      cases made with
      | error e' =>
        -- the directory above could not be made, and its path is part of this one
        injection h with h
        subst h
        have hpos : 0 < parts.length := by
          apply List.length_pos_iff.mpr
          rintro rfl
          simp at hlast
        rcases ih (congrArg Prod.snd hmade) with ⟨hnull, he⟩ | ⟨hroom, he⟩ | hearly
        · refine .inl ⟨?_, he⟩
          by_contra hnone
          exact absurd hnull (by simp [hasNull_dropLast (by simpa using hnone)])
        · rw [List.length_dropLast] at hroom
          exact .inr (.inl ⟨by omega, he⟩)
        · exact .inr (.inr hearly)
      | ok above =>
        simp only at h
        split at h
        next cause hwalk =>
          injection h with h
          exact .inr (.inr (h ▸ walk_early hwalk _))
        next => exact .inr (.inr (settled_eq_error h ▸ ⟨rfl, rfl⟩))
    next e' hreach _ =>
      injection h with h
      exact h ▸ (reach_error hreach).imp_right .inr
    next => exact .inr (.inr (settled_eq_error h ▸ ⟨rfl, rfl⟩))

/-- What comes of making directories comes of making those that are missing. -/
theorem makeDirectories_result (fs : Files) (p : Path) (mayExist : Bool) :
    (fs.makeDirectories p mayExist).2
      = (fs.makeMissing p.anchor maxMissing mayExist p.parts).2.map fun _ => () := by
  unfold makeDirectories
  generalize fs.makeMissing p.anchor maxMissing mayExist p.parts = made
  rfl

/-- So it is with all directories of a path. -/
theorem makeDirectories_error {fs : Files} {p : Path} {mayExist : Bool} {e : FileError}
    (h : (fs.makeDirectories p mayExist).2 = .error e) :
    p.hasNull = true ∧ e = .nullInPath ∨ maxMissing ≤ p.parts.length ∧ e = .tooDeep
      ∨ e.IsEarly := by
  rw [makeDirectories_result] at h
  cases hmade : (fs.makeMissing p.anchor maxMissing mayExist p.parts).2 with
  | error e' =>
    rw [hmade] at h
    injection h with h
    exact h ▸ makeMissing_error hmade
  | ok loc => simp [hmade, Except.map] at h

end Files

/-! ## §6. Publishing. -/

namespace Compiler

/-- **Publishing a page**: the directories above it cannot be made, or they are made and
the page is written. -/
theorem publish_cases (files : Files) (target : Path) (html : String) :
    ∃ files', Files.Kept (files.OnWay target.parent) (fun _ => False) files files'
      ∧ ((∃ e, (files.makeDirectories target.parent true).2 = .error e
            ∧ publish files target html = (files', .error e))
          ∨ publish files target html = files'.write target html.toUTF8) := by
  refine ⟨_, files.makeDirectories_kept target.parent true, ?_⟩
  unfold publish
  rcases files.makeDirectories target.parent true with ⟨files', result⟩
  cases result with
  | error e => exact .inl ⟨e, rfl, rfl⟩
  | ok u => exact .inr rfl

/-- **A published page** is written where its target leads, and nowhere else. -/
theorem publish_kept (files : Files) (target : Path) (html : String) :
    Files.Kept (files.OnWay target.parent) (· = files.placeOf target) files
      (publish files target html).1 := by
  obtain ⟨files', hmade, ⟨e, -, hpublish⟩ | hpublish⟩ := publish_cases files target html
  · rw [hpublish]
    exact hmade.mono (fun _ h => h) fun _ h => h.elim
  · have hwritten := files'.write_kept target html.toUTF8
    rw [Files.placeOf_eq_of_ground hmade.ground] at hwritten
    rw [hpublish]
    exact (hmade.mono (fun _ h => h) fun _ h => h.elim).trans
      (hwritten.mono (fun _ h => h.elim) fun _ h => h)

/-- A page that was published stands at its target. -/
theorem publish_eq_ok {files : Files} {target : Path} {html : String}
    (h : (publish files target html).2 = .ok ()) :
    ∃ mtime, (publish files target html).1.version? (files.placeOf target)
      = some (html.toUTF8, mtime) := by
  obtain ⟨files', hmade, ⟨e, -, hpublish⟩ | hpublish⟩ := publish_cases files target html
  · rw [hpublish] at h
    exact absurd h (by simp)
  · rw [hpublish] at h ⊢
    have hwritten := Files.version?_of_write h
    rw [Files.placeOf_eq_of_ground hmade.ground] at hwritten
    exact hwritten

/-- **A page that could not be published** was not written anywhere, unless its file was
opened and could not be filled. -/
theorem publish_kept_of_error {files : Files} {target : Path} {html : String} {e : FileError}
    (h : (publish files target html).2 = .error e)
    (hopened : (Failure.files e).brokeOff = false) :
    Files.Kept (files.OnWay target.parent) (fun _ => False) files
      (publish files target html).1 := by
  obtain ⟨files', hmade, ⟨e', -, hpublish⟩ | hpublish⟩ := publish_cases files target html
  · rw [hpublish]
    exact hmade
  · rw [hpublish] at h ⊢
    cases hopen : files'.openNew target with
    | error e' =>
      rw [Files.write_of_refused hopen]
      exact hmade
    | ok opened =>
      rw [(Files.write_of_openNew hopen html.toUTF8).2.2] at h
      split at h
      next => exact absurd h (by simp)
      next =>
        injection h with h
        rw [← h] at hopened
        exact absurd hopened (by simp [Failure.brokeOff])

/-- A page that broke off stands at its target as far as there was room for it. -/
theorem version?_of_brokeOff {files : Files} {target : Path} {html : String} {e : FileError}
    (h : (publish files target html).2 = .error e)
    (hopened : (Failure.files e).brokeOff = true) :
    ∃ mtime, (publish files target html).1.version? (files.placeOf target)
      = some (files.fitting html.toUTF8, mtime) := by
  obtain ⟨files', hmade, ⟨e', hdirs, hpublish⟩ | hpublish⟩ := publish_cases files target html
  · -- making directories opens no file
    rw [hpublish] at h
    injection h with h
    subst h
    rcases Files.makeDirectories_error hdirs with ⟨-, rfl⟩ | ⟨-, rfl⟩ | hearly
    · exact absurd hopened (by simp [Failure.brokeOff])
    · exact absurd hopened (by simp [Failure.brokeOff])
    · exact absurd hopened (by simp [hearly.2])
  · rw [hpublish] at h ⊢
    cases hopen : files'.openNew target with
    | error e' =>
      rw [Files.write_of_refused hopen] at h
      injection h with h
      subst h
      rcases Files.openNew_error hopen with ⟨-, rfl⟩ | hearly
      · exact absurd hopened (by simp [Failure.brokeOff])
      · exact absurd hopened (by simp [hearly.2])
    | ok opened =>
      have hhere := Files.version?_of_openNew hopen html.toUTF8
      rw [Files.placeOf_eq_of_ground hmade.ground] at hhere
      refine ⟨files'.currentTime, hhere.trans ?_⟩
      rw [Files.fitting, Files.fitting, hmade.ground]

/-- A target without null characters and with few enough parts can only be
refused. -/
theorem publish_refuses {files : Files} {target : Path} {html : String}
    (hnull : target.hasNull = false) (hparts : target.parts.length ≤ Files.maxMissing)
    {e : FileError} (h : (publish files target html).2 = .error e) : e.isRefusal = true := by
  obtain ⟨files', -, ⟨e', hdirs, hpublish⟩ | hpublish⟩ := publish_cases files target html
  · rw [hpublish] at h
    injection h with h
    subst h
    rcases Files.makeDirectories_error hdirs with ⟨hnull', -⟩ | ⟨hdeep, -⟩ | hearly
    · have hparent : target.parent.hasNull = false := Files.hasNull_dropLast hnull
      exact absurd hnull' (by simp [hparent])
    · have hpos : 0 < Files.maxMissing := by norm_num [Files.maxMissing]
      rw [Path.parent, List.length_dropLast] at hdeep
      omega
    · exact hearly.1
  · rw [hpublish] at h
    exact Files.write_refuses hnull h

end Compiler

/-! ## §7. Targets that can be written. -/

namespace Files

/-- A file of any size can be written along a path: its names can be used, no link
and no file stands in the way, and there is no directory in its place, nor will there
be one. -/
structure Accepts (fs : Files) (target : Path) : Prop where
  roomy : fs.limit = none
  direct : fs.Direct target
  named : target.hasNull = false
  short : ∀ n, (Path.mk target.anchor (target.parts.take n)).toString.utf8ByteSize ≤ maxPathBytes
  names : ∀ name ∈ target.parts, name.utf8ByteSize ≤ maxNameBytes
  shallow : target.parts.length ≤ maxMissing
  clear : ∀ loc, fs.OnWay target.parent loc → fs.version? loc = none ∧ loc ≠ fs.placeOf target
  free : fs.at? (fs.placeOf target) ≠ some .directory

/-- What holds of all ways to a path holds of the path cut off anywhere. -/
theorem forall_take {p : Path} {P : Path → Prop}
    (h : ∀ n ≤ p.parts.length, P ⟨p.anchor, p.parts.take n⟩) (n : Nat) :
    P ⟨p.anchor, p.parts.take n⟩ := by
  rcases Nat.le_total n p.parts.length with hn | hn
  · exact h n hn
  · have hwhole := h p.parts.length (Nat.le_refl _)
    rw [List.take_length] at hwhole
    rw [List.take_of_length_le hn]
    exact hwhole

/-- Whether a target is accepted can be found out. -/
instance (fs : Files) (target : Path) : Decidable (fs.Accepts target) :=
  decidable_of_iff
    (fs.limit = none
      ∧ fs.Direct target
      ∧ target.hasNull = false
      ∧ (∀ n ≤ target.parts.length,
          (Path.mk target.anchor (target.parts.take n)).toString.utf8ByteSize ≤ maxPathBytes)
      ∧ (∀ name ∈ target.parts, name.utf8ByteSize ≤ maxNameBytes)
      ∧ target.parts.length ≤ maxMissing
      ∧ (∀ n ≤ target.parent.parts.length,
          fs.version? (fs.placeOf ⟨target.parent.anchor, target.parent.parts.take n⟩) = none
            ∧ fs.placeOf ⟨target.parent.anchor, target.parent.parts.take n⟩ ≠ fs.placeOf target)
      ∧ (fs.at? (fs.placeOf target)).all (fun entry => entry matches .file ..) = true) <| by
    constructor
    · rintro ⟨hroomy, hdirect, hnull, hshort, hnames, hparts, hclear, hfree⟩
      refine ⟨hroomy, hdirect, hnull,
        forall_take (P := fun q => q.toString.utf8ByteSize ≤ maxPathBytes) hshort, hnames, hparts,
        ?_, ?_⟩
      · rintro loc ⟨n, rfl⟩
        exact forall_take (P := fun q => fs.version? (fs.placeOf q) = none
          ∧ fs.placeOf q ≠ fs.placeOf target) hclear n
      · intro hdirectory
        simp [hdirectory] at hfree
    · intro h
      refine ⟨h.roomy, h.direct, h.named, fun n _ => h.short n, h.names, h.shallow,
        fun n _ => h.clear _ ⟨n, rfl⟩, ?_⟩
      match hat : fs.at? (fs.placeOf target) with
      | none => rfl
      | some (.file ..) => rfl
      | some .directory => exact absurd hat h.free

/-- Other files may be written, and directories made for them, as long as they
do not get in the way. -/
theorem Accepts.kept {made written : Location → Prop} {a b : Files} {target : Path}
    (h : a.Accepts target) (hkept : Kept made written a b)
    (hwritten : ∀ loc, written loc → ¬ a.OnWay target.parent loc)
    (hmade : ∀ loc, made loc → loc ≠ a.placeOf target) : b.Accepts target := by
  refine ⟨?_, h.direct.of_ground hkept.ground, h.named, h.short, h.names, h.shallow, ?_, ?_⟩
  · rw [hkept.ground]
    exact h.roomy
  · intro loc hloc
    rw [onWay_eq_of_ground hkept.ground] at hloc
    rw [hkept.version? fun hw => hwritten loc hw hloc, placeOf_eq_of_ground hkept.ground]
    exact h.clear loc hloc
  · rw [placeOf_eq_of_ground hkept.ground]
    rcases hkept.entry (a.placeOf target) with hsame | ⟨hm, -⟩ | ⟨-, -, hfile⟩
    · rw [hsame]
      exact h.free
    · exact absurd rfl (hmade _ hm)
    · intro hdirectory
      exact hfile (by simp [version?, hdirectory])

/-- Where no file is in the way, a walk fails only because something is
missing. -/
theorem walk_error {fs : Files} {loc : Location} {names : List String} {cause : FileCause}
    (hclear : ∀ n, fs.version? ((names.take n).foldl hop loc) = none)
    (hnames : ∀ name ∈ names, name.utf8ByteSize ≤ maxNameBytes)
    (h : fs.walk loc names = .error cause) : cause = .notFound := by
  induction names generalizing loc with
  | nil => exact absurd h (by simp [walk])
  | cons name rest ih =>
    rw [walk_cons] at h
    split at h
    next =>
      injection h with h
      exact h.symm
    next content mtime executable hfile =>
      exact absurd (hclear 0) (by simp [version?, hfile])
    next =>
      rw [if_neg (by have := hnames name (by simp); omega)] at h
      exact ih (fun n => hclear (n + 1)) (fun name hname => hnames name (by simp [hname])) h

/-- The path can be used up to any of its parts, and no link and no file is in the
way. -/
structure Passable (fs : Files) (p : Path) : Prop where
  direct : fs.Direct p
  named : p.hasNull = false
  short : ∀ n, (Path.mk p.anchor (p.parts.take n)).toString.utf8ByteSize ≤ maxPathBytes
  names : ∀ name ∈ p.parts, name.utf8ByteSize ≤ maxNameBytes
  clear : ∀ loc, fs.OnWay p loc → fs.version? loc = none

/-- The way to the directory above can be passed too. -/
theorem Passable.dropLast {fs : Files} {anchor : Anchor} {parts : List String}
    (h : fs.Passable ⟨anchor, parts⟩) : fs.Passable ⟨anchor, parts.dropLast⟩ := by
  refine ⟨h.direct.dropLast, hasNull_dropLast h.named, ?_, ?_,
    fun loc hloc => h.clear loc (OnWay.of_dropLast hloc)⟩
  · intro n
    simp only [List.dropLast_eq_take, List.take_take]
    exact h.short _
  · exact fun name hname => h.names name (List.dropLast_subset parts hname)

/-- A path whose way can be passed is not too long. -/
theorem Passable.utf8ByteSize_le {fs : Files} {p : Path} (h : fs.Passable p) :
    p.toString.utf8ByteSize ≤ maxPathBytes := by
  have := h.short p.parts.length
  rwa [List.take_length] at this

/-- The way to the last name of such a path is the way along all of it. -/
theorem Passable.reach {fs : Files} {p : Path} (h : fs.Passable p) :
    fs.reach p (fs.routeTo p) = fs.locate p := by
  rw [Files.locate, h.direct.routeTo, h.direct.route]

/-- Such a path leads somewhere, or something on the way is missing. -/
theorem Passable.locate_error {fs : Files} {p : Path} (h : fs.Passable p) {e : FileError}
    (hlocate : fs.locate p = .error e) : e = .refused .notFound p.toString ∧ p.parts ≠ [] := by
  have hclear : ∀ n, fs.version? ((p.parts.take n).foldl hop (fs.origin p)) = none := by
    intro n
    have hplace := (h.direct.take n).placeOf
    exact hplace ▸ h.clear _ ⟨n, rfl⟩
  unfold locate Files.reach at hlocate
  rw [if_neg (by simp [h.named]), if_neg (by have := h.utf8ByteSize_le; omega), h.direct.route]
    at hlocate
  cases hwalk : fs.walk (fs.origin p) p.parts with
  | ok loc => simp [hwalk] at hlocate
  | error cause =>
    have hcause := walk_error hclear h.names hwalk
    simp only [hwalk] at hlocate
    injection hlocate with hlocate
    refine ⟨by rw [← hlocate, hcause], ?_⟩
    intro hnil
    rw [hnil] at hwalk
    exact absurd hwalk (by simp [walk])

/-- From a directory that a path leads to, one more name can be followed. -/
theorem locate_concat {fs : Files} {anchor : Anchor} {above : List String} {name : String}
    (hdirect : fs.Direct ⟨anchor, above ++ [name]⟩)
    (hnull : (Path.mk anchor (above ++ [name])).hasNull = false)
    (hshort : (Path.mk anchor (above ++ [name])).toString.utf8ByteSize ≤ maxPathBytes)
    (hname : name.utf8ByteSize ≤ maxNameBytes)
    (habove : fs.locate ⟨anchor, above⟩ = .ok (fs.placeOf ⟨anchor, above⟩))
    (hdirectory : fs.at? (fs.placeOf ⟨anchor, above⟩) = some .directory) :
    fs.locate ⟨anchor, above ++ [name]⟩ = .ok (fs.placeOf ⟨anchor, above ++ [name]⟩) := by
  have hdirect' : fs.Direct ⟨anchor, above⟩ := by
    have := hdirect.dropLast
    rwa [List.dropLast_concat] at this
  have hwalk := (hdirect'.locate_eq_ok_iff.mp habove).2.2
  refine hdirect.locate_eq_ok_iff.mpr ⟨hnull, hshort, ?_⟩
  show fs.walk (fs.origin ⟨anchor, above⟩) (above ++ [name]) = _
  rw [walk_append hwalk, walk_name hdirectory hname, hdirect.placeOf_concat]

/-- A directory can be made at a place that is clear, or is there already. -/
theorem makeAt_of_clear {fs : Files} {p : Path} {loc : Location}
    (hlink : linkAt? fs.links loc = none) (h : fs.version? loc = none) :
    ∃ fs', fs.makeAt p true loc = .ok (fs', loc) ∧ fs'.at? loc = some .directory
      ∧ Kept (· = loc) (fun _ => False) fs fs' := by
  have hmade : ∃ fs', fs.makeAt p true loc = .ok (fs', loc) := by
    unfold makeAt
    simp only [hlink]
    match hat : fs.at? loc with
    | none => exact ⟨_, rfl⟩
    | some .directory => exact ⟨_, rfl⟩
    | some (.file content mtime executable) => exact absurd h (by simp [version?, hat])
  obtain ⟨fs', hmade⟩ := hmade
  rcases makeAt_kept hmade with ⟨-, -, hkept, hdirectory⟩ | ⟨hlinked, -⟩
  · exact ⟨fs', hmade, hdirectory, hkept⟩
  · exact absurd hlink hlinked

/-- **Directories can be made** along a passable path, given room for all of its
parts. -/
theorem makeMissing_of_passable {fs : Files} {anchor : Anchor} {room : Nat} {parts : List String}
    (h : fs.Passable ⟨anchor, parts⟩) (hroom : parts.length < room) :
    ∃ fs', fs.makeMissing anchor room true parts = (fs', .ok (fs.placeOf ⟨anchor, parts⟩))
      ∧ fs'.locate ⟨anchor, parts⟩ = .ok (fs.placeOf ⟨anchor, parts⟩)
      ∧ fs'.at? (fs.placeOf ⟨anchor, parts⟩) = some .directory := by
  induction room generalizing parts with
  | zero => omega
  | succ room ih =>
    have hend : fs.version? (fs.placeOf ⟨anchor, parts⟩) = none :=
      h.clear _ (fs.onWay_placeOf ⟨anchor, parts⟩)
    have hlink : linkAt? fs.links (fs.placeOf ⟨anchor, parts⟩) = none := h.direct.linkAt?_placeOf
    cases hlocate : fs.locate ⟨anchor, parts⟩ with
    | ok loc =>
      obtain rfl := locate_eq_ok hlocate
      obtain ⟨fs', hmake, hdirectory, hkept⟩ := makeAt_of_clear (p := ⟨anchor, parts⟩) hlink hend
      refine ⟨fs', ?_, hkept.locate hlocate, hdirectory⟩
      unfold makeMissing
      simp only [h.reach, hlocate, hmake]
      rfl
    | error e =>
      -- the part above is made first, and the last name is followed from there
      obtain ⟨rfl, hne⟩ := h.locate_error hlocate
      have hreach := h.reach
      obtain ⟨above, name, rfl⟩ := (List.eq_nil_or_concat' parts).resolve_left hne
      have hpassable : fs.Passable ⟨anchor, above⟩ := by
        have := h.dropLast
        rwa [List.dropLast_concat] at this
      have hlength : above.length < room := by simpa using hroom
      obtain ⟨fs₁, hmissing, hlocate₁, hdirectory₁⟩ := ih hpassable hlength
      have hkept₁ := (makeMissing_kept fs anchor room true above).1
      rw [hmissing] at hkept₁
      have hplace : ∀ p, fs₁.placeOf p = fs.placeOf p := placeOf_eq_of_ground hkept₁.ground
      have hname : name.utf8ByteSize ≤ maxNameBytes := h.names name (by simp)
      have hwalk : fs₁.walk (fs.placeOf ⟨anchor, above⟩) [name]
          = .ok (fs.placeOf ⟨anchor, above ++ [name]⟩) := by
        rw [walk_name hdirectory₁ hname, h.direct.placeOf_concat]
      have hlast : fs₁.locate ⟨anchor, above ++ [name]⟩
          = .ok (fs.placeOf ⟨anchor, above ++ [name]⟩) := by
        rw [← hplace] at hlocate₁ hdirectory₁ ⊢
        exact locate_concat (h.direct.of_ground hkept₁.ground) h.named h.utf8ByteSize_le hname
          hlocate₁ hdirectory₁
      have hend₁ : fs₁.version? (fs.placeOf ⟨anchor, above ++ [name]⟩) = none := by
        rw [hkept₁.version? fun h => h]
        exact hend
      have hlink₁ : linkAt? fs₁.links (fs.placeOf ⟨anchor, above ++ [name]⟩) = none := by
        rw [hkept₁.ground]
        exact hlink
      obtain ⟨fs₂, hmake, hdirectory₂, hkept₂⟩ :=
        makeAt_of_clear (p := ⟨anchor, above ++ [name]⟩) hlink₁ hend₁
      refine ⟨fs₂, ?_, hkept₂.locate hlast, hdirectory₂⟩
      unfold makeMissing
      simp only [hreach, hlocate, List.getLast?_concat, List.dropLast_concat, hmissing, hwalk, hmake]
      rfl

/-- **All directories on a way that can be passed** can be made. -/
theorem makeDirectories_of_passable {fs : Files} {p : Path} (h : fs.Passable p)
    (hparts : p.parts.length < maxMissing) :
    ∃ fs', fs.makeDirectories p true = (fs', .ok ())
      ∧ fs'.locate p = .ok (fs.placeOf p) ∧ fs'.at? (fs.placeOf p) = some .directory := by
  obtain ⟨fs', hmissing, hrest⟩ := makeMissing_of_passable h hparts
  refine ⟨fs', ?_, hrest⟩
  unfold makeDirectories
  rw [hmissing]
  rfl

/-- A target that is accepted has a way to it that can be passed. -/
theorem Accepts.passable {fs : Files} {target : Path} (h : fs.Accepts target) :
    fs.Passable target.parent := by
  refine ⟨h.direct.dropLast, hasNull_dropLast h.named, ?_, ?_,
    fun loc hloc => (h.clear loc hloc).1⟩
  · intro n
    simp only [Path.parent, List.dropLast_eq_take, List.take_take]
    exact h.short _
  · exact fun name hname => h.names name (List.dropLast_subset _ hname)

/-- A path on whose way the end itself is not passed has a last name. -/
theorem Accepts.parts_ne_nil {fs : Files} {target : Path} (h : fs.Accepts target) :
    target.parts ≠ [] := by
  intro hnil
  have hparent : target.parent = target := by
    unfold Path.parent
    rw [hnil, List.dropLast_nil, ← hnil]
  refine (h.clear (fs.placeOf target) ?_).2 rfl
  rw [hparent]
  exact fs.onWay_placeOf target

/-- A file is opened wherever there is no directory. -/
theorem openNew_of_locate {fs : Files} {p : Path} {loc : Location} (hlocate : fs.locate p = .ok loc)
    (hfree : fs.at? loc ≠ some .directory) : ∃ opened, fs.openNew p = .ok (opened, loc) := by
  unfold openNew
  simp only [hlocate]
  exact ⟨_, rfl⟩

/-- With the directories above it, an accepted file can be written. -/
theorem Accepts.write_eq_ok {fs fs' : Files} {target : Path} (h : fs.Accepts target)
    (hkept : Kept (fs.OnWay target.parent) (fun _ => False) fs fs')
    (hparent : fs'.locate target.parent = .ok (fs.placeOf target.parent))
    (hdirectory : fs'.at? (fs.placeOf target.parent) = some .directory) (content : ByteArray) :
    (fs'.write target content).2 = .ok () := by
  obtain ⟨anchor, parts⟩ := target
  obtain ⟨above, name, rfl⟩ := (List.eq_nil_or_concat' parts).resolve_left h.parts_ne_nil
  have hplace : ∀ p, fs'.placeOf p = fs.placeOf p := placeOf_eq_of_ground hkept.ground
  simp only [Path.parent, List.dropLast_concat] at hparent hdirectory hkept
  have hlocate : fs'.locate ⟨anchor, above ++ [name]⟩
      = .ok (fs'.placeOf ⟨anchor, above ++ [name]⟩) := by
    rw [← hplace] at hparent hdirectory
    have hshort := h.short (above ++ [name]).length
    rw [List.take_length] at hshort
    exact locate_concat (h.direct.of_ground hkept.ground) h.named hshort (h.names name (by simp))
      hparent hdirectory
  have hfree : fs'.at? (fs'.placeOf ⟨anchor, above ++ [name]⟩) ≠ some .directory := by
    rw [hplace]
    rcases hkept.entry (fs.placeOf ⟨anchor, above ++ [name]⟩) with hsame | ⟨hmade, -⟩ | ⟨hw, -⟩
    · rw [hsame]
      exact h.free
    · refine absurd rfl (h.clear _ ?_).2
      simpa only [Path.parent, List.dropLast_concat] using hmade
    · exact hw.elim
  obtain ⟨opened, hopen⟩ := openNew_of_locate hlocate hfree
  rw [(write_of_openNew hopen content).2.2, if_pos]
  rw [fits, hkept.ground, h.roomy]

end Files

/-- **A target that is accepted** gets its page. -/
theorem Compiler.publish_of_accepts {files : Files} {target : Path} (h : files.Accepts target)
    (html : String) : (publish files target html).2 = .ok () := by
  have hroom : target.parent.parts.length < Files.maxMissing := by
    have := h.shallow
    have := List.length_pos_iff.mpr h.parts_ne_nil
    rw [Path.parent, List.length_dropLast]
    omega
  obtain ⟨files', hmade, hparent, hdirectory⟩ := Files.makeDirectories_of_passable h.passable hroom
  have hkept := files.makeDirectories_kept target.parent true
  rw [hmade] at hkept
  unfold publish
  rw [hmade]
  exact h.write_eq_ok hkept hparent hdirectory html.toUTF8

end Offside
