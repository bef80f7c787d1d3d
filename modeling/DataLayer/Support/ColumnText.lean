/- The support module for the columns of entities. -/
namespace DataLayer.Support

def ormLines : List String :=
  ["//! Persistence bindings of generated entities.",
   "//!",
   "//! Copied verbatim by modelgen into every generated tree. Each entity",
   "//! registers one [`Column`] per field through the [`Entity`] trait.",
   "",
   "/// Storage kind of an entity field.",
   "#[derive(Debug, Clone, Copy, PartialEq, Eq)]",
   "pub enum ColumnKind \x7b",
   "    /// Primary key, unique and never null.",
   "    PrimaryKey,",
   "    /// Unbounded text.",
   "    Text,",
   "    /// 32-bit integer.",
   "    Integer,",
   "    /// Double precision float.",
   "    DoublePrecision,",
   "    /// Boolean.",
   "    Boolean,",
   "    /// Timestamp with time zone.",
   "    TimestampTz,",
   "    /// Arbitrary precision numeric.",
   "    Numeric,",
   "    /// Binary blob.",
   "    Bytea,",
   "    /// Text bounded to the given number of characters.",
   "    VarChar(usize),",
   "    /// Structured JSON document.",
   "    Jsonb,",
   "    /// Reference to the primary key of another entity.",
   "    ManyToOne(&'static str),",
   "    /// Inverse side of a `ManyToOne` on another entity; not stored here.",
   "    OneToMany \x7b",
   "        /// Related entity.",
   "        entity: &'static str,",
   "        /// Field of the related entity referencing this one.",
   "        inverse: &'static str,",
   "    \x7d,",
   "\x7d",
   "",
   "impl ColumnKind \x7b",
   "    /// Returns the SQL type of the column, or `None` when the field is not",
   "    /// backed by a column of this table.",
   "    #[must_use]",
   "    pub const fn sql_type(&self) -> Option<&'static str> \x7b",
   "        match self \x7b",
   "            Self::PrimaryKey | Self::Text | Self::ManyToOne(_) => Some(\"text\"),",
   "            Self::Integer => Some(\"integer\"),",
   "            Self::DoublePrecision => Some(\"double precision\"),",
   "            Self::Boolean => Some(\"bool\"),",
   "            Self::TimestampTz => Some(\"timestamp with time zone\"),",
   "            Self::Numeric => Some(\"numeric\"),",
   "            Self::Bytea => Some(\"bytea\"),",
   "            Self::VarChar(_) => Some(\"varchar\"),",
   "            Self::Jsonb => Some(\"jsonb\"),",
   "            Self::OneToMany \x7b .. \x7d => None,",
   "        \x7d",
   "    \x7d",
   "\x7d",
   "",
   "/// Binding of one entity field.",
   "#[derive(Debug, Clone, Copy, PartialEq, Eq)]",
   "pub struct Column \x7b",
   "    /// Field name as declared in the schema.",
   "    pub field: &'static str,",
   "    /// Storage kind.",
   "    pub kind: ColumnKind,",
   "    /// Whether the column accepts null.",
   "    pub nullable: bool,",
   "    /// Whether the column is indexed.",
   "    pub indexed: bool,",
   "\x7d",
   "",
   "/// Registration table of a generated entity.",
   "pub trait Entity \x7b",
   "    /// Entity name as declared in the schema.",
   "    const NAME: &'static str;",
   "    /// One binding per field, in declaration order.",
   "    const COLUMNS: &'static [Column];",
   "",
   "    /// Looks up the binding of a field.",
   "    fn column(field: &str) -> Option<&'static Column> \x7b",
   "        Self::COLUMNS.iter().find(|column| column.field == field)",
   "    \x7d",
   "",
   "    /// Returns the binding of the primary key.",
   "    fn primary_key() -> Option<&'static Column> \x7b",
   "        Self::COLUMNS",
   "            .iter()",
   "            .find(|column| column.kind == ColumnKind::PrimaryKey)",
   "    \x7d",
   "\x7d"]

end DataLayer.Support
