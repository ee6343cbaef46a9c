import ProdkitStorage.Python.Uuid

/-!
# Request context

`context.py`.  The context variable is a value that changes between the calls of
a client, so a model takes the current context as an argument of each call.
-/

namespace ProdkitStorage

open ProdkitStorage.Python

/-- `RequestContext`.  Every field defaults to `None`. -/
structure RequestContext where
  tenantId : Option Uuid := none
  actorId : Option Uuid := none
  requestId : Option String := none
  traceId : Option String := none
deriving DecidableEq, Repr

/-- `get_request_context`, at the value of the context variable. -/
def getRequestContext (current : Option RequestContext) : RequestContext := current.getD {}

end ProdkitStorage
