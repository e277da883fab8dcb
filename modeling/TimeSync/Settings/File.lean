import TimeSync.Settings.Document

/-!
# Settings files

A settings file is read, parsed and checked, in this order; what goes wrong
first is reported.
-/

namespace TimeSync.Settings

inductive FileFault where
  /-- There is no such file, or it is not text. -/
  | read (path : String)
  | parse (path : String)
  | invalid (fault : SettingsFault)

def FileFault.message : FileFault → String
  | read path => s!"failed to read config {path}"
  | parse path => s!"failed to parse config {path}"
  | invalid fault => fault.message

/-- The settings in a file at `path`, whose bytes are `contents`, if there is one. -/
def ofFile (path : String) (contents : Option ByteArray) :
    Except FileFault Settings :=
  match contents >>= String.fromUTF8? with
  | none => .error (.read path)
  | some text =>
    match ofText? text.toList with
    | none => .error (.parse path)
    | some settings =>
      match settings.fault? with
      | some fault => .error (.invalid fault)
      | none => .ok settings

end TimeSync.Settings
