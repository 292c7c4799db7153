/-
The commands the host builds (`src/QT/Desktop/src/json/jsonParseCreate.cpp`).

`QJsonDocument` is a parameter: `toJson` writes a JSON text of the object it is given.  Strings are
the bytes of their encoding.

* `insertMember` — `QJsonObject`, whose members are sorted;
* `buildCommand` — the builders;
* `cmdDeliver_buildCommand` — what the device does with their commands.
-/
import SentrySystem.CommandJson

namespace Sentry

/-! ### Builders -/

/-- `QJsonObject::insert`: the members are sorted by name, and each name comes once. -/
def insertMember (name : List UInt8) (value : Json Int32 (List UInt8)) :
    JsonObject Int32 (List UInt8) → JsonObject Int32 (List UInt8)
  | .nil => .cons name value .nil
  | .cons n v rest =>
    if name = n then .cons n value rest
    else if name < n then .cons name value (.cons n v rest)
    else .cons n v (insertMember name value rest)

/-- `buildCommand`. -/
def buildCommand (toJson : JsonObject Int32 (List UInt8) → List UInt8) (mod cmd type : UInt32)
    (param : JsonObject Int32 (List UInt8)) : List UInt8 :=
  let root := insertMember verKey (.number 0) .nil
  let root := insertMember modKey (.number mod.toInt32) root
  let root := insertMember cmdKey (.number cmd.toInt32) root
  let root := insertMember typeKey (.number type.toInt32) root
  let root := insertMember paramKey (.object param) root
  toJson root

/-- `buildQueryFilesCommand`. -/
def buildQueryFilesCommand (toJson : JsonObject Int32 (List UInt8) → List UInt8) : List UInt8 :=
  buildCommand toJson 7 0x0201 1 .nil

section Commands

variable {toJson : JsonObject Int32 (List UInt8) → List UInt8} (mod cmd type : UInt32)
variable (param : JsonObject Int32 (List UInt8))

end Commands

end Sentry
