import ApiSurface.Toolchain.Resolver

/-!
This module contains what was found out about the languages' analyzers. A search is done once for a language, and
again only if it is asked for or if what was found is dropped.
-/

namespace ApiSurface

/--
What was found, by language.
-/
structure AvailabilityCache where
  entries : List (Language × Resolution) := []
deriving DecidableEq, Repr

namespace AvailabilityCache

/--
What was found for a language.
-/
def get? (c : AvailabilityCache) (l : Language) : Option Resolution :=
  c.entries.lookup l

/--
Drop what was found for a language.
-/
def erase (c : AvailabilityCache) (l : Language) : AvailabilityCache :=
  { entries := c.entries.filter (fun e => e.1 != l) }

/--
Remember what was found for a language.
-/
def insert (c : AvailabilityCache) (l : Language) (r : Resolution) : AvailabilityCache :=
  { entries := (l, r) :: (c.erase l).entries }

/--
Search for a language's analyzer and remember the answer.
-/
def resolveForced (c : AvailabilityCache) (search : Language → Resolution) (l : Language) :
    Resolution × AvailabilityCache :=
  let r := search l
  (r, c.insert l r)

/--
What is known of a language's analyzer; it is searched for if nothing is.
-/
def resolve (c : AvailabilityCache) (search : Language → Resolution) (l : Language) :
    Resolution × AvailabilityCache :=
  match c.get? l with
  | some r => (r, c)
  | none => c.resolveForced search l

/--
Drop what was found for one language, or for all.
-/
def invalidate (c : AvailabilityCache) : Option Language → AvailabilityCache
  | some l => c.erase l
  | none => {}

end AvailabilityCache

end ApiSurface
