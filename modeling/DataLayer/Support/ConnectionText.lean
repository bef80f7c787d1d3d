/- The support module with the settings of the database connection. -/
namespace DataLayer.Support

def dbConfigLines : List String :=
  ["//! Connection settings for the query-serving process.",
   "//!",
   "//! Copied verbatim by modelgen into every generated tree.",
   "",
   "use std::env;",
   "",
   "/// Database connection settings.",
   "#[derive(Debug, Clone, PartialEq, Eq)]",
   "pub struct DbConfig \x7b",
   "    /// Server host.",
   "    pub host: String,",
   "    /// Server port.",
   "    pub port: u16,",
   "    /// Login user.",
   "    pub username: String,",
   "    /// Login password.",
   "    pub password: String,",
   "    /// Database name.",
   "    pub database: String,",
   "\x7d",
   "",
   "impl Default for DbConfig \x7b",
   "    fn default() -> Self \x7b",
   "        Self \x7b",
   "            host: \"localhost\".to_owned(),",
   "            port: 5432,",
   "            username: \"postgres\".to_owned(),",
   "            password: \"postgres\".to_owned(),",
   "            database: \"postgres\".to_owned(),",
   "        \x7d",
   "    \x7d",
   "\x7d",
   "",
   "impl DbConfig \x7b",
   "    /// Reads `DB_HOST`, `DB_PORT`, `DB_USER`, `DB_PASS` and `DB_NAME`,",
   "    /// falling back to the defaults for unset or unparsable values.",
   "    #[must_use]",
   "    pub fn from_env() -> Self \x7b",
   "        let defaults = Self::default();",
   "        Self \x7b",
   "            host: env::var(\"DB_HOST\").unwrap_or(defaults.host),",
   "            port: env::var(\"DB_PORT\")",
   "                .ok()",
   "                .and_then(|port| port.parse().ok())",
   "                .unwrap_or(defaults.port),",
   "            username: env::var(\"DB_USER\").unwrap_or(defaults.username),",
   "            password: env::var(\"DB_PASS\").unwrap_or(defaults.password),",
   "            database: env::var(\"DB_NAME\").unwrap_or(defaults.database),",
   "        \x7d",
   "    \x7d",
   "",
   "    /// Returns a `postgres://` connection URL.",
   "    #[must_use]",
   "    pub fn url(&self) -> String \x7b",
   "        format!(",
   "            \"postgres://\x7b\x7d:\x7b\x7d@\x7b\x7d:\x7b\x7d/\x7b\x7d\",",
   "            self.username, self.password, self.host, self.port, self.database",
   "        )",
   "    \x7d",
   "\x7d"]

end DataLayer.Support
