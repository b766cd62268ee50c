import MapStyle.Dictionary
import MapStyle.Export.Error
import MapStyle.Icon

/-!
# Icon atlases

Icon atlases: icons under the sprite names by which points of interest refer to them, loaded from
the files of a directory.
-/

namespace MapStyle

abbrev IconAtlas := Dictionary Icon

/-- An entry of a directory. One that cannot be read, such as a directory, has no content. -/
structure DirectoryEntry where
  name : String
  content : Option ByteArray

namespace IconAtlas

/-- A text without an ending, if it has that ending. -/
def stripEnding? (ending : String) (text : List Char) : Option (List Char) :=
  if ending.toList.isSuffixOf text then some (text.take (text.length - ending.length)) else none

/-- The stem of the name of an icon's file. A dot in front of a name begins no extension. -/
def stem? (fileName : String) : Option (List Char) :=
  match stripEnding? ".svg" fileName.toList with
  | some [] => none
  | stem => stem

/-- The sprite name of a stem, which leaves out a size of 15 pixels. -/
def spriteName (stem : List Char) : String :=
  String.ofList ((stripEnding? "-15" stem).getD stem)

/--
The atlas with one more entry of the directory at `path`; files that hold no icon are left out.
-/
def addEntry (path : String) (atlas : IconAtlas) (entry : DirectoryEntry) :
    Except ExportError IconAtlas :=
  match stem? entry.name with
  | none => .ok atlas
  | some stem =>
    match entry.content.bind String.fromUTF8? with
    | none => .error (.icon (path ++ "/" ++ entry.name))
    | some text =>
      match Icon.ofSvg? text with
      | some icon => .ok (atlas.insert (spriteName stem) icon)
      | none => .ok atlas

/--
The atlas of the directory at `path`, whose entries are given in the order in which they are listed;
`none` stands for a directory that cannot be listed.
-/
def load (path : String) (entries : Option (List DirectoryEntry)) : Except ExportError IconAtlas :=
  match entries with
  | none => .error (.directory path)
  | some entries => entries.foldlM (addEntry path) .empty

end IconAtlas

end MapStyle
