/- The support module with the helpers for JSON: its errors, the combinators and a pair of functions
   for every scalar. -/
namespace DataLayer.Support

def marshalLines : List String :=
  ["//! Conversions between generated model values and their JSON form.",
   "//!",
   "//! Copied verbatim by modelgen into every generated tree that contains JSON",
   "//! objects. Requires `serde_json`, `chrono` and `num-bigint`.",
   "",
   "use std::fmt;",
   "",
   "use serde_json::Value;",
   "",
   "/// Key carrying the variant name of union members.",
   "pub const DISCRIMINATOR: &str = \"isTypeOf\";",
   "",
   "/// Error raised while reading a JSON record into a generated value.",
   "#[derive(Debug, Clone, PartialEq, Eq)]",
   "pub enum MarshalError \x7b",
   "    /// The JSON value does not have the expected shape.",
   "    InvalidType \x7b",
   "        /// Expected JSON shape.",
   "        expected: &'static str,",
   "        /// Actual JSON shape.",
   "        found: &'static str,",
   "    \x7d,",
   "    /// The JSON value has the right shape but cannot be parsed.",
   "    InvalidValue \x7b",
   "        /// Expected value format.",
   "        expected: &'static str,",
   "        /// Rejected value.",
   "        value: String,",
   "    \x7d,",
   "    /// A required value is null or missing.",
   "    NullValue,",
   "    /// A union record names no declared variant.",
   "    UnknownDiscriminator \x7b",
   "        /// Union name.",
   "        union: &'static str,",
   "        /// Discriminator found in the record, if any.",
   "        discriminator: Option<String>,",
   "    \x7d,",
   "\x7d",
   "",
   "impl MarshalError \x7b",
   "    /// Creates an unknown discriminator error.",
   "    pub fn unknown_discriminator(union: &'static str, discriminator: Option<&str>) -> Self \x7b",
   "        Self::UnknownDiscriminator \x7b",
   "            union,",
   "            discriminator: discriminator.map(str::to_owned),",
   "        \x7d",
   "    \x7d",
   "\x7d",
   "",
   "impl fmt::Display for MarshalError \x7b",
   "    fn fmt(&self, f: &mut fmt::Formatter<'_>) -> fmt::Result \x7b",
   "        match self \x7b",
   "            Self::InvalidType \x7b expected, found \x7d => \x7b",
   "                write!(f, \"expected JSON \x7bexpected\x7d, found \x7bfound\x7d\")",
   "            \x7d",
   "            Self::InvalidValue \x7b expected, value \x7d => \x7b",
   "                write!(f, \"invalid \x7bexpected\x7d: '\x7bvalue\x7d'\")",
   "            \x7d",
   "            Self::NullValue => f.write_str(\"unexpected null value\"),",
   "            Self::UnknownDiscriminator \x7b",
   "                union,",
   "                discriminator: Some(name),",
   "            \x7d => write!(f, \"unknown json object passed as \x7bunion\x7d: '\x7bname\x7d'\"),",
   "            Self::UnknownDiscriminator \x7b",
   "                union,",
   "                discriminator: None,",
   "            \x7d => write!(f, \"unknown json object passed as \x7bunion\x7d\"),",
   "        \x7d",
   "    \x7d",
   "\x7d",
   "",
   "impl std::error::Error for MarshalError \x7b\x7d",
   "",
   "/// Panic payload raised when a required property is read before being set.",
   "#[derive(Debug, Clone, PartialEq, Eq)]",
   "pub struct UninitializedAccessError \x7b",
   "    /// Owning type.",
   "    pub owner: &'static str,",
   "    /// Property name.",
   "    pub field: &'static str,",
   "\x7d",
   "",
   "impl fmt::Display for UninitializedAccessError \x7b",
   "    fn fmt(&self, f: &mut fmt::Formatter<'_>) -> fmt::Result \x7b",
   "        write!(f, \"uninitialized access: \x7b\x7d.\x7b\x7d\", self.owner, self.field)",
   "    \x7d",
   "\x7d",
   "",
   "impl std::error::Error for UninitializedAccessError \x7b\x7d",
   "",
   "/// Returns the value of a required property.",
   "///",
   "/// # Panics",
   "/// Panics with [`UninitializedAccessError`] if the property was never set.",
   "#[track_caller]",
   "pub fn assert_initialized<'a, T>(",
   "    value: Option<&'a T>,",
   "    owner: &'static str,",
   "    field: &'static str,",
   ") -> &'a T \x7b",
   "    match value \x7b",
   "        Some(value) => value,",
   "        None => panic!(\"\x7b\x7d\", UninitializedAccessError \x7b owner, field \x7d),",
   "    \x7d",
   "\x7d",
   "",
   "static NULL: Value = Value::Null;",
   "",
   "/// Returns the named member of a JSON record, or null when absent.",
   "pub fn field<'a>(json: &'a Value, key: &str) -> &'a Value \x7b",
   "    json.get(key).unwrap_or(&NULL)",
   "\x7d",
   "",
   "/// Rejects null.",
   "pub fn non_null(json: &Value) -> Result<&Value, MarshalError> \x7b",
   "    if json.is_null() \x7b",
   "        Err(MarshalError::NullValue)",
   "    \x7d else \x7b",
   "        Ok(json)",
   "    \x7d",
   "\x7d",
   "",
   "/// Maps null to `None`, anything else through `f`.",
   "pub fn nullable<T>(",
   "    json: &Value,",
   "    f: impl FnOnce(&Value) -> Result<T, MarshalError>,",
   ") -> Result<Option<T>, MarshalError> \x7b",
   "    if json.is_null() \x7b Ok(None) \x7d else \x7b f(json).map(Some) \x7d",
   "\x7d",
   "",
   "/// Reads a JSON array element by element.",
   "pub fn from_list<T>(",
   "    json: &Value,",
   "    f: impl Fn(&Value) -> Result<T, MarshalError>,",
   ") -> Result<Vec<T>, MarshalError> \x7b",
   "    match json \x7b",
   "        Value::Array(items) => items.iter().map(f).collect(),",
   "        other => Err(invalid_type(\"array\", other)),",
   "    \x7d",
   "\x7d",
   "",
   "fn shape(json: &Value) -> &'static str \x7b",
   "    match json \x7b",
   "        Value::Null => \"null\",",
   "        Value::Bool(_) => \"boolean\",",
   "        Value::Number(_) => \"number\",",
   "        Value::String(_) => \"string\",",
   "        Value::Array(_) => \"array\",",
   "        Value::Object(_) => \"object\",",
   "    \x7d",
   "\x7d",
   "",
   "fn invalid_type(expected: &'static str, found: &Value) -> MarshalError \x7b",
   "    MarshalError::InvalidType \x7b",
   "        expected,",
   "        found: shape(found),",
   "    \x7d",
   "\x7d",
   "",
   "fn invalid_value(expected: &'static str, value: impl Into<String>) -> MarshalError \x7b",
   "    MarshalError::InvalidValue \x7b",
   "        expected,",
   "        value: value.into(),",
   "    \x7d",
   "\x7d",
   "",
   "pub mod string \x7b",
   "    use super::\x7bMarshalError, Value, invalid_type\x7d;",
   "",
   "    pub fn from_json(json: &Value) -> Result<String, MarshalError> \x7b",
   "        json.as_str()",
   "            .map(str::to_owned)",
   "            .ok_or_else(|| invalid_type(\"string\", json))",
   "    \x7d",
   "",
   "    pub fn to_json(value: &str) -> Value \x7b",
   "        Value::from(value)",
   "    \x7d",
   "\x7d",
   "",
   "pub mod id \x7b",
   "    use super::\x7bMarshalError, Value\x7d;",
   "",
   "    pub fn from_json(json: &Value) -> Result<String, MarshalError> \x7b",
   "        super::string::from_json(json)",
   "    \x7d",
   "",
   "    pub fn to_json(value: &str) -> Value \x7b",
   "        Value::from(value)",
   "    \x7d",
   "\x7d",
   "",
   "pub mod int \x7b",
   "    use super::\x7bMarshalError, Value, invalid_type\x7d;",
   "",
   "    pub fn from_json(json: &Value) -> Result<i32, MarshalError> \x7b",
   "        json.as_i64()",
   "            .and_then(|value| i32::try_from(value).ok())",
   "            .ok_or_else(|| invalid_type(\"32-bit integer\", json))",
   "    \x7d",
   "",
   "    pub fn to_json(value: &i32) -> Value \x7b",
   "        Value::from(*value)",
   "    \x7d",
   "\x7d",
   "",
   "pub mod float \x7b",
   "    use super::\x7bMarshalError, Value, invalid_type\x7d;",
   "",
   "    pub fn from_json(json: &Value) -> Result<f64, MarshalError> \x7b",
   "        json.as_f64().ok_or_else(|| invalid_type(\"number\", json))",
   "    \x7d",
   "",
   "    pub fn to_json(value: &f64) -> Value \x7b",
   "        Value::from(*value)",
   "    \x7d",
   "\x7d",
   "",
   "pub mod boolean \x7b",
   "    use super::\x7bMarshalError, Value, invalid_type\x7d;",
   "",
   "    pub fn from_json(json: &Value) -> Result<bool, MarshalError> \x7b",
   "        json.as_bool().ok_or_else(|| invalid_type(\"boolean\", json))",
   "    \x7d",
   "",
   "    pub fn to_json(value: &bool) -> Value \x7b",
   "        Value::from(*value)",
   "    \x7d",
   "\x7d",
   "",
   "/// Timestamps travel as RFC 3339 strings in UTC with millisecond precision.",
   "pub mod datetime \x7b",
   "    use super::\x7bMarshalError, Value, invalid_value\x7d;",
   "    use chrono::\x7bDateTime, SecondsFormat, Utc\x7d;",
   "",
   "    pub fn from_json(json: &Value) -> Result<DateTime<Utc>, MarshalError> \x7b",
   "        let s = super::string::from_json(json)?;",
   "        DateTime::parse_from_rfc3339(&s)",
   "            .map(|value| value.with_timezone(&Utc))",
   "            .map_err(|_| invalid_value(\"RFC 3339 timestamp\", s))",
   "    \x7d",
   "",
   "    pub fn to_json(value: &DateTime<Utc>) -> Value \x7b",
   "        Value::from(value.to_rfc3339_opts(SecondsFormat::Millis, true))",
   "    \x7d",
   "\x7d",
   "",
   "/// Arbitrary precision integers travel as decimal strings.",
   "pub mod bigint \x7b",
   "    use super::\x7bMarshalError, Value, invalid_value\x7d;",
   "    use num_bigint::BigInt;",
   "",
   "    pub fn from_json(json: &Value) -> Result<BigInt, MarshalError> \x7b",
   "        let s = super::string::from_json(json)?;",
   "        s.parse().map_err(|_| invalid_value(\"decimal integer\", s))",
   "    \x7d",
   "",
   "    pub fn to_json(value: &BigInt) -> Value \x7b",
   "        Value::from(value.to_string())",
   "    \x7d",
   "\x7d",
   "",
   "/// Byte strings travel as `0x`-prefixed lowercase hex.",
   "pub mod bytes \x7b",
   "    use super::\x7bMarshalError, Value, invalid_value\x7d;",
   "",
   "    pub fn from_json(json: &Value) -> Result<Vec<u8>, MarshalError> \x7b",
   "        let s = super::string::from_json(json)?;",
   "        let hex = match s.strip_prefix(\"0x\") \x7b",
   "            Some(hex) if hex.is_ascii() && hex.len() % 2 == 0 => hex,",
   "            _ => return Err(invalid_value(\"0x-prefixed hex string\", s.as_str())),",
   "        \x7d;",
   "        (0..hex.len())",
   "            .step_by(2)",
   "            .map(|i| \x7b",
   "                u8::from_str_radix(&hex[i..i + 2], 16)",
   "                    .map_err(|_| invalid_value(\"0x-prefixed hex string\", s.as_str()))",
   "            \x7d)",
   "            .collect()",
   "    \x7d",
   "",
   "    pub fn to_json(value: &[u8]) -> Value \x7b",
   "        const DIGITS: &[u8; 16] = b\"0123456789abcdef\";",
   "        let mut out = String::with_capacity(2 + value.len() * 2);",
   "        out.push_str(\"0x\");",
   "        for byte in value \x7b",
   "            out.push(char::from(DIGITS[usize::from(byte >> 4)]));",
   "            out.push(char::from(DIGITS[usize::from(byte & 0x0f)]));",
   "        \x7d",
   "        Value::from(out)",
   "    \x7d",
   "\x7d",
   "",
   "/// Enum members travel as their name.",
   "pub mod enumeration \x7b",
   "    use super::\x7bMarshalError, Value, invalid_value\x7d;",
   "    use std::str::FromStr;",
   "",
   "    pub fn from_json<T: FromStr>(json: &Value) -> Result<T, MarshalError> \x7b",
   "        let s = super::string::from_json(json)?;",
   "        s.parse().map_err(|_| invalid_value(\"enum member\", s))",
   "    \x7d",
   "\x7d"]

end DataLayer.Support
