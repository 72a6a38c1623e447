import Marginalia.Note

namespace Marginalia

-- Why an operation on documents failed. A record is malformed, or well formed with a range
-- that no span can have.
inductive Fault where
  | range (fault : RangeFault)
  | noNote (kind : Kind)
  | snippetTooLarge (count limit : Nat)
  | foreignDocument (expected found : Handle)
  | malformedRecord
  | recordRange (fault : RangeFault)
  | malformedSettings
  | unreadableFile
deriving DecidableEq

namespace Fault

-- The texts that are fixed; `name` says how a document is called.
def message? (name : Handle → String) : Fault → Option String
  | .range fault => some fault.message
  | .noNote kind => some s!"no {kind.name} annotation attached"
  | .snippetTooLarge count limit => some s!"snippet holds {count} sentences, limit is {limit}"
  | .foreignDocument expected found =>
    some ("snippet belongs to " ++ name expected ++ ", not " ++ name found)
  | .recordRange fault => some fault.message
  | .malformedRecord | .malformedSettings | .unreadableFile => none

end Fault

end Marginalia
