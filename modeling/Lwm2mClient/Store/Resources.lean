import Lwm2mClient.Store.Object

/-!
Numbers of the objects and resources that the lifecycle depends on. Every instance of the Security
object names a server; an instance of the Server object holds the registration parameters of the
device management server with the same short id.
-/
namespace Lwm2mClient

namespace ObjectId

def security : NumericId := 0
def server : NumericId := 1
def device : NumericId := 3

end ObjectId

namespace SecurityResource

def serverUri : NumericId := 0
def bootstrap : NumericId := 1
def mode : NumericId := 2
def identity : NumericId := 3
def serverPublicKey : NumericId := 4
def secretKey : NumericId := 5
def shortServerId : NumericId := 10

/-- The security mode of pre-shared keys. -/
def preSharedKeyMode : Int64 := 0

end SecurityResource

namespace ServerResource

def shortServerId : NumericId := 0
def lifetime : NumericId := 1
def binding : NumericId := 7

end ServerResource
end Lwm2mClient
