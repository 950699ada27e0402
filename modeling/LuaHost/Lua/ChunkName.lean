import LuaHost.Lua.Generation

set_option autoImplicit false

/-!
# Names of chunks

Messages show the place of an error as the chunk's display name and a line. The name has limited
room: a path loses its beginning, a source its end.
-/

namespace LuaHost.Lua.ChunkName

/-- The display form of a chunk's name: a file's path, a text of its own, or the quoted source. -/
def display (g : Generation) (name : List UInt8) : List UInt8 :=
  let dots : List UInt8 := [46, 46, 46]
  let name := name.takeWhile (· != 0)
  match name with
  | 61 :: rest => rest.take 59
  | 64 :: rest =>
    let room := if g == .v51 then 52 else 59
    let kept := if g == .v51 then 52 else 56
    if rest.length ≤ room then rest else dots ++ rest.drop (rest.length - kept)
  | _ =>
    let opening := "[string \"".toUTF8.data.toList
    let closing := "\"]".toUTF8.data.toList
    let firstLine :=
      if g == .v51 then name.takeWhile (fun b => b != 10 && b != 13) else name.takeWhile (· != 10)
    let limit := if g == .v51 then 43 else 45
    let fits := if g == .v51 then name.length ≤ limit else name.length < limit
    if fits && firstLine.length == name.length then opening ++ name ++ closing
    else opening ++ firstLine.take limit ++ dots ++ closing

/-- The name and line as a message begins with them. -/
def place (g : Generation) (name : ByteArray) (line : Nat) : ByteArray :=
  ⟨(display g name.data.toList).toArray⟩ ++ (":" ++ toString line ++ ": ").toUTF8

end LuaHost.Lua.ChunkName
