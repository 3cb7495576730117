import Ost.Basemodule

/-!
# The commands of the clients

What the senders of `front/core/connection.js` put on the wire: the command and its
payload, whose objects keep the order in which the script writes their keys.
-/

namespace Ost.Front

open Lib

/-- What a client sends about one property. -/
inductive PropertyMessage where
  | setValue (elementName : String) (value : QJsonValue)
  | setAll (values : QJsonValue)
  | requestPropertyDump
  | clickPropertyIcon (slot : Fin 4)
  | clickElementIcon (slot : Fin 2) (elementName : String)
  | gridCreate (values : QJsonValue)
  | gridUpdate (index : ℚ) (values : QJsonValue)
  | gridDelete (index : ℚ)
  | gridFetch (index : ℚ)
  | gridMoveUp (index : ℚ)
  | gridMoveDown (index : ℚ)
  | gridReset

inductive ClientCommand where
  | heartbeat
  | requestDump (language : String)
  | login (user pw language : String)
  | setLanguage (language : String)
  | property (moduleName propName : String) (msg : PropertyMessage)
  | loadProfile (moduleName profile : String)
  | saveProfile (moduleName profile : String)
  | query (moduleName queryName : String) (params : QJsonValue)
  | loadConfiguration (name : String)
  | saveConfiguration (name : String)
  | loadModule (lib label profile : String)
  | killModule (name : String)
  | selectFolder (folder : String)
  | indiStart
  | indiStop
  | indiLoadDriver (binary : String)
  | indiReloadDriver (binary : String)
  | indiStopDriver (binary : String)
  | indiConnectDriver (binary : String)
  | indiDisconnectDriver (binary : String)
  | indiLoadConfiguration (name : String)

namespace PropertyMessage

def command : PropertyMessage → ExtEvType
  | setValue _ _ => .SV
  | setAll _ => .SA
  | requestPropertyDump => .DP
  | clickPropertyIcon 0 => .I1
  | clickPropertyIcon 1 => .I2
  | clickPropertyIcon 2 => .I3
  | clickPropertyIcon 3 => .I4
  | clickElementIcon 0 _ => .J1
  | clickElementIcon 1 _ => .J2
  | gridCreate _ => .GC
  | gridUpdate _ _ => .GU
  | gridDelete _ => .GD
  | gridFetch _ => .GF
  | gridMoveUp _ => .GH
  | gridMoveDown _ => .GB
  | gridReset => .GR

/-- The object under the name of the property. -/
def extra : PropertyMessage → QJsonValue
  | setValue elementName value => .obj [("e", .obj [(elementName, value)])]
  | setAll values => .obj [("e", values)]
  | clickElementIcon _ elementName => .obj [("e", .obj [(elementName, .obj [])])]
  | gridCreate values => .obj [("e", values)]
  | gridUpdate index values => .obj [("i", .num index), ("e", values)]
  | gridDelete index | gridFetch index | gridMoveUp index | gridMoveDown index =>
    .obj [("i", .num index)]
  | requestPropertyDump | clickPropertyIcon _ | gridReset => .obj []

/-- The element the message names. -/
def element? : PropertyMessage → Option String
  | setValue elementName _ | clickElementIcon _ elementName => some elementName
  | _ => none

/-- The line the message names. -/
def line? : PropertyMessage → Option ℚ
  | gridUpdate index _ | gridDelete index | gridFetch index | gridMoveUp index
  | gridMoveDown index => some index
  | _ => none

end PropertyMessage

namespace ClientCommand

/-- The type of the command; its name on the wire is `ExtEvToString` of it. -/
def command : ClientCommand → ExtEvType
  | heartbeat => .XX
  | requestDump _ => .DU
  | login _ _ _ => .LO
  | setLanguage _ => .IL
  | property _ _ msg => msg.command
  | loadProfile _ _ => .PL
  | saveProfile _ _ => .PS
  | query _ _ _ => .QY
  | loadConfiguration _ => .CL
  | saveConfiguration _ => .CS
  | loadModule _ _ _ => .ML
  | killModule _ => .MK
  | selectFolder _ => .FS
  | indiStart => .YA
  | indiStop => .YZ
  | indiLoadDriver _ => .YL
  | indiReloadDriver _ => .YR
  | indiStopDriver _ => .YS
  | indiConnectDriver _ => .YC
  | indiDisconnectDriver _ => .YD
  | indiLoadConfiguration _ => .YK

def payload : ClientCommand → QJsonValue
  | heartbeat | indiStart | indiStop => .obj []
  | requestDump language | setLanguage language => .obj [("language", .str language)]
  | login user pw language =>
    .obj [("user", .str user), ("pw", .str pw), ("language", .str language)]
  | property moduleName propName msg =>
    .obj [("m", .obj [(moduleName, .obj [("p", .obj [(propName, msg.extra)])])])]
  | loadProfile moduleName profile | saveProfile moduleName profile =>
    .obj [("m", .obj [(moduleName, .obj [("profile", .str profile)])])]
  | query moduleName queryName params =>
    .obj [("m", .obj [(moduleName, .obj [("query", .str queryName), ("params", params)])])]
  | loadConfiguration name | saveConfiguration name | killModule name
  | indiLoadConfiguration name => .obj [("name", .str name)]
  | loadModule lib label profile =>
    .obj ([("lib", .str lib), ("label", .str label)] ++
      if profile ≠ "" then [("profile", .str profile)] else [])
  | selectFolder folder => .obj [("folder", .str folder)]
  | indiLoadDriver binary | indiReloadDriver binary | indiStopDriver binary
  | indiConnectDriver binary | indiDisconnectDriver binary => .obj [("driver", .str binary)]

/-- `{[command]: payload}`. -/
def message (c : ClientCommand) : QJsonValue := .obj [(ExtEvToString c.command, c.payload)]

end ClientCommand

end Ost.Front
