import DataLayer.Proofs.Code.Members
import DataLayer.Proofs.Code.PrimaryKeys
import DataLayer.Proofs.Text.Slices

/- The widths of the columns that hold members of enumerations. A width is the size in bytes of the
   longest value, whoever has looked at the values before. It is counted in characters, and both are
   the same because no code is generated for an enumeration with a value beyond ASCII. -/
namespace DataLayer

namespace Schema
open Text

end Schema

namespace Code
open Schema Support Outcome Text

end Code

end DataLayer
