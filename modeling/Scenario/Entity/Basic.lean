import Scenario.Resource.Basic
import Scenario.Tag

/-!
# Entities

An entity is a parsed resource. Its program is missing while the resource is still being parsed.
-/

namespace Scenario

/-- A parsed resource. -/
structure Entity where
  /-- The resource it was parsed from. -/
  resource : Resource
  /-- The name of the root element. -/
  rootTag : String
  /-- When the resource had been changed last at the time of parsing. -/
  timestamp : Option Stamp
  /-- The instructions, once parsing has ended. -/
  program : Option Program := none

namespace Entity

/-- The name of an entity. -/
def name (e : Entity) : String := e.resource.name

/-- The path of an entity's resource. -/
def path (e : Entity) : String := e.resource.path

/-- Whether the resource is gone or has been changed since it was parsed. -/
def isModified (e : Entity) (s : Storage) : Bool :=
  !s.isPresent e.resource || s.modified e.resource != e.timestamp

end Entity

end Scenario
