import Lwm2mClient.Duration

/-!
Settings of the client endpoint. They are built from the defaults by setting values one by one.
-/
namespace Lwm2mClient

structure Settings where
  /-- The name the client presents to its servers. -/
  endpoint : String := "lwm2m-client"
  /-- How long a bootstrap session may take once the server accepted it. -/
  bootstrapTimeout : Duration := .ofSeconds 10
  /-- How long before the lifetime ends a registration is renewed. -/
  renewalMargin : Duration := .ofSeconds 1
  /-- Handed to the transport with every request. -/
  requestTimeout : Option Duration := none
  deriving DecidableEq

/-- One value to be set. -/
inductive Setting where
  | endpoint (name : String)
  | bootstrapTimeout (timeout : Duration)
  | renewalMargin (margin : Duration)
  | requestTimeout (timeout : Duration)

namespace Settings

def set (settings : Settings) : Setting → Settings
  | .endpoint name => { settings with endpoint := name }
  | .bootstrapTimeout timeout => { settings with bootstrapTimeout := timeout }
  | .renewalMargin margin => { settings with renewalMargin := margin }
  | .requestTimeout timeout => { settings with requestTimeout := some timeout }

/-- The defaults with some values set, in order. -/
def build (values : List Setting) : Settings := values.foldl set {}

end Settings
end Lwm2mClient
