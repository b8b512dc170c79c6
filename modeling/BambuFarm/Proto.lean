-- The messages between the client and the server (`service.proto`) that the
-- modelled handlers read and write, and the result codes of the client.
import Mathlib.Init

namespace bambu_farm

abbrev Bytes := List UInt8

structure ConnectRequest where
  dev_id : String
  password : String
  deriving DecidableEq

structure RecvMessage where
  connected : Bool
  dev_id : String
  data : String
  deriving DecidableEq

structure SendMessageRequest where
  dev_id : String
  data : String
  deriving DecidableEq

structure PrinterOption where
  dev_name : String
  dev_id : String
  model : String
  host : String
  deriving DecidableEq

structure UploadFileRequest where
  dev_id : String
  blob : Bytes
  remote_path : String
  deriving DecidableEq

structure UploadFileChunk where
  dev_id : String
  blob : Bytes
  remote_path : String
  deriving DecidableEq

end bambu_farm

namespace bambu_farm_client.errors

def BAMBU_NETWORK_SUCCESS : Int := 0
def BAMBU_NETWORK_ERR_SEND_MSG_FAILED : Int := -4

end bambu_farm_client.errors
