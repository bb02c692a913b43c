import LuauWorkspace.Path.Script
import LuauWorkspace.Uri.Basic

/-! # Documents

A document is the text that a client has open, with the version that the client counts. -/

namespace LuauWorkspace

/-- A document. -/
structure Document where
  uri : Uri
  language : Language
  version : Int
  content : String
deriving DecidableEq, Inhabited

namespace Document

/-- The largest version. -/
def versionLimit : Int := 2147483647

/-- The document with a new text. Without a version from the client the version goes up by one, if
it can. -/
def update (document : Document) (content : String) (version : Option Int) : Document :=
  { document with
    content
    version := version.getD (min (document.version + 1) versionLimit) }

end Document

end LuauWorkspace
