import DataLayer.Text.Digits

/- Where a database is found and how to log in. Each setting has a variable in the environment; a
   variable that is not set, or that holds no port where one is expected, leaves the default. -/
namespace DataLayer.Settings
open Text

abbrev Environment := String → Option String

structure Connection where
  host : String := "localhost"
  port : UInt16 := 5432
  username : String := "postgres"
  password : String := "postgres"
  database : String := "postgres"
  deriving DecidableEq, Repr

namespace Connection

def port? (text : String) : Option UInt16 :=
  let digits := match text.toList with
    | '+' :: digits => digits
    | digits => digits
  ((number? 10 digits).filter (· < 65536)).map UInt16.ofNat

def ofEnvironment (e : Environment) : Connection :=
  let default : Connection := {}
  { host := (e "DB_HOST").getD default.host
    port := ((e "DB_PORT").bind port?).getD default.port
    username := (e "DB_USER").getD default.username
    password := (e "DB_PASS").getD default.password
    database := (e "DB_NAME").getD default.database }

def url (c : Connection) : String :=
  "postgres://" ++ c.username ++ ":" ++ c.password ++ "@" ++ c.host ++ ":" ++
    toString c.port.toNat ++ "/" ++ c.database

end Connection

end DataLayer.Settings
