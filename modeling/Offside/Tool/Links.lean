/-
  Offside.Tool.Links
  ──────────────────
  Making links, and removing files.
-/
import Offside.Tool.Quoting
import Offside.Tool.Usage

namespace Offside.Tool

/-- Whether something stands under the name of a path, be it a link that leads
nowhere. -/
def isTaken (files : Files) (p : Path) : Bool :=
  (Files.linkAt? files.links (files.standing p)).isSome || (files.stat p).toOption.isSome

/-- The options of `ln`. -/
def linkFlags : List Flag := [{ letters := ['s'], names := ["symbolic"] }]

/-- **Make a link** that holds a path, under a name that is free. -/
def link (c : Call) : Finish :=
  c.usage linkFlags false fun u =>
    match u.has "s", u.operands with
    | true, [held, word] =>
      let path := pathOf word
      let failed (reason : String) : Finish :=
        c.fail s!"failed to create symbolic link {quotedForShell word}: {reason}"
      if isTaken c.files path then failed FileCause.exists.text
      else
        match c.files.stat path.parent with
        | .ok .directory => { files := some (c.files.apply (.link path (Path.ofString (nameOf held)))) }
        | .ok (.file ..) => failed FileCause.notDirectory.text
        | .error e => failed e.reason
    | _, _ => c.misused "missing file operand"

/-- The options of `rm`. -/
def removeFlags : List Flag :=
  [{ letters := ['f'], names := ["force"] }, { letters := ['r', 'R'], names := ["recursive"] }]

/-- **Remove files**, and links for themselves. -/
def remove (c : Call) : Finish :=
  c.usage removeFlags false fun u =>
    let step (s : Files × Octets) (word : String) : Files × Octets :=
      let path := pathOf word
      let failed (reason : String) : Files × Octets :=
        (s.1, s.2 ++ c.complaint s!"cannot remove {quotedForShell word}: {reason}")
      let isLink := (Files.linkAt? s.1.links (s.1.standing path)).isSome
      match isLink, s.1.stat path with
      | false, .error e => if u.has "f" then s else failed e.reason
      | false, .ok .directory =>
        if u.has "r" then (s.1.apply (.remove path), s.2) else failed FileCause.isDirectory.text
      | _, _ => (s.1.apply (.remove path), s.2)
    if u.operands.isEmpty && !u.has "f" then c.misused "missing operand"
    else
      let (files, complaints) := u.operands.foldl step (c.files, [])
      { code := if complaints.isEmpty then 0 else 1, writes := [.err complaints]
        files := some files }

end Offside.Tool
